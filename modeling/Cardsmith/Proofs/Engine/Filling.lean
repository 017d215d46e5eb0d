import Cardsmith.Proofs.Engine.Frames

/-!
# Frames into a sink that fills up

A sink takes the bytes of all frames in order until its room is used up, in whatever pieces it
takes them.  What comes of a frame is decided by how much room is left where it begins: it is
handed on whole, it is cut off in its payload, or it is cut off in its size.
-/

namespace Cardsmith
namespace Engine

theorem FrameFault.message_unwritten (label : String) (part : Part) (reason : SinkFault) :
    (unwritten label part reason).message =
      label ++ (" write " ++ part.name ++ " failed: " ++ reason.message) := by
  rw [← String.append_assoc, ← String.append_assoc, ← String.append_assoc]
  rfl

theorem FrameFault.message_unflushed (label : String) (reason : SinkFault) :
    (unflushed label reason).message = label ++ (" flush failed: " ++ reason.message) := by
  rw [← String.append_assoc]
  rfl

namespace Sink

/-! ## One part of a frame -/

theorem forall_room_of_le {sink : Sink} {room n : Nat} (hroom : sink.room = some room)
    (hle : n ≤ room) : ∀ limit ∈ sink.room, n ≤ limit := by
  intro limit hlimit
  rw [hroom] at hlimit
  cases hlimit
  exact hle

theorem writeUpTo_of_full {limit room : Nat} {sink : Sink} {bytes : Bytes}
    (hlimit : bytes.length ≤ limit) (hroom : sink.room = some room) (hfull : room < bytes.length) :
    ∃ after, writeUpTo limit sink bytes = (false, after) ∧
      after.arrived = sink.arrived ++ bytes.take room ∧ after.room = some 0 ∧
      after.flushes = sink.flushes := by
  induction limit generalizing sink bytes room with
  | zero => omega
  | succ limit ih =>
      cases bytes with
      | nil => cases hfull
      | cons b rest =>
          by_cases hzero : room = 0
          · subst hzero
            refine ⟨sink, ?_, by simp, hroom, rfl⟩
            rw [writeUpTo, write?, if_pos hroom]
          · have hsome : sink.room ≠ some 0 := by
              rw [hroom]
              exact fun h => hzero (Option.some.inj h)
            rcases write?_of_room (List.cons_ne_nil b rest) hsome with
              ⟨n, between, hwrite, hpos, hle, hbound, harrived, hbetween, hflushes⟩
            have hn : n ≤ room := hbound room hroom
            have hleft : ((b :: rest).drop n).length = (b :: rest).length - n := List.length_drop
            rw [hroom, Option.map_some] at hbetween
            have hmore : ((b :: rest).drop n).length ≤ limit := by omega
            rcases ih hmore hbetween (by omega) with
              ⟨after, hrest, hall, hroomAfter, hflushesAfter⟩
            refine ⟨after, ?_, ?_, hroomAfter, hflushesAfter.trans hflushes⟩
            · rw [writeUpTo, hwrite]
              exact hrest
            · rw [hall, harrived, List.append_assoc, ← List.take_add, Nat.add_sub_cancel' hn]

/-! ## One frame -/

/-- What comes of a frame with so many bytes of payload where so much room is left. -/
def report (label : String) (flushes : Bool) (room size : Nat) : Except FrameFault Unit :=
  if room < 4 then .error (.unwritten label .length .full)
  else if room < 4 + size then .error (.unwritten label .data .full)
  else handedOn label flushes

theorem report_cases (label : String) (flushes : Bool) (room start size : Nat) :
    let outcome := report label flushes (room - start) size
    (outcome = .ok () ↔ start + (4 + size) ≤ room ∧ flushes = true) ∧
      (start + (4 + size) ≤ room → flushes = false →
        outcome = .error (.unflushed label .flushRefused)) ∧
      (room < start + 4 → outcome = .error (.unwritten label .length .full)) ∧
      (start + 4 ≤ room → room < start + (4 + size) →
        outcome = .error (.unwritten label .data .full)) := by
  intro outcome
  by_cases hshort : room < start + 4
  · have houtcome : outcome = .error (.unwritten label .length .full) := if_pos (by omega)
    have hcut : ¬ start + (4 + size) ≤ room := by omega
    simp [houtcome, hshort, hcut, Nat.not_le.mpr hshort]
  · by_cases hcut : room < start + (4 + size)
    · have houtcome : outcome = .error (.unwritten label .data .full) := by
        show report label flushes (room - start) size = _
        rw [report, if_neg (by omega), if_pos (by omega)]
      simp [houtcome, hshort, hcut, Nat.not_le.mpr hcut]
    · have houtcome : outcome = handedOn label flushes := by
        show report label flushes (room - start) size = _
        rw [report, if_neg (by omega), if_neg (by omega)]
      cases flushes <;> simp [houtcome, handedOn, hshort, hcut, Nat.le_of_not_lt hcut]

theorem writeFrame_of_full {sink : Sink} {payload : Bytes} {room : Nat} (label : String)
    (hsize : payload.length < 0x100000000) (hroom : sink.room = some room)
    (hfull : room < (Frame.encode payload).length) :
    ∃ after, writeFrame label sink payload =
        (report label sink.flushes room payload.length, after) ∧
      after.arrived = sink.arrived ++ (Frame.encode payload).take room ∧
      after.room = some 0 ∧ after.flushes = sink.flushes := by
  have hfour := Frame.length_header payload.length
  rw [Frame.length_encode] at hfull
  rw [writeFrame, if_neg (Nat.not_le.mpr hsize), Frame.encode, report]
  by_cases hshort : room < 4
  · rcases writeUpTo_of_full (Nat.le_refl _) hroom (hfour.symm ▸ hshort) with
      ⟨after, hheader, harrived, hafter, hflushes⟩
    refine ⟨after, ?_, ?_, hafter, hflushes⟩
    · rw [writeAll, hheader, if_pos hshort]
    · rw [harrived, List.take_append_of_le_length (by omega)]
  · have hheaderRoom := forall_room_of_le hroom (hfour.symm ▸ Nat.le_of_not_lt hshort)
    rcases writeUpTo_of_room (Nat.le_refl _) hheaderRoom with
      ⟨between, hheader, hbytes, hleft, hflushes⟩
    rw [hroom, Option.map_some, hfour] at hleft
    have hcut : room - 4 < payload.length := by omega
    rcases writeUpTo_of_full (Nat.le_refl _) hleft hcut with
      ⟨after, hdata, harrived, hafter, hflushesAfter⟩
    refine ⟨after, ?_, ?_, hafter, hflushesAfter.trans hflushes⟩
    · rw [writeAll, hheader, if_neg hshort, if_pos hfull]
      simp only [writeAll, hdata]
    · rw [harrived, hbytes, List.take_append, hfour,
        List.take_of_length_le (by omega : (Frame.header payload.length).length ≤ room),
        List.append_assoc]

theorem writeFrame_eq {sink : Sink} {payload : Bytes} {room : Nat} (label : String)
    (hsize : payload.length < 0x100000000) (hroom : sink.room = some room) :
    ∃ after, writeFrame label sink payload =
        (report label sink.flushes room payload.length, after) ∧
      after.arrived = sink.arrived ++ (Frame.encode payload).take room ∧
      after.room = some (room - (Frame.encode payload).length) ∧
      after.flushes = sink.flushes := by
  by_cases hfull : room < (Frame.encode payload).length
  · rw [Nat.sub_eq_zero_of_le (Nat.le_of_lt hfull)]
    exact writeFrame_of_full label hsize hroom hfull
  · have hwhole : (Frame.encode payload).length ≤ room := Nat.le_of_not_lt hfull
    rcases writeFrame_of_room label hsize (forall_room_of_le hroom hwhole) with
      ⟨after, hwrite, harrived, hafter, hflushes⟩
    refine ⟨after, ?_, ?_, ?_, hflushes⟩
    · have hlength := Frame.length_encode payload
      rw [hwrite, report, if_neg (by omega), if_neg (by omega)]
    · rw [harrived, List.take_of_length_le hwhole]
    · rw [hafter, hroom, Option.map_some]

/-! ## All frames -/

def reports (label : String) (flushes : Bool) : Nat → List Bytes → List (Except FrameFault Unit)
  | _, [] => []
  | room, payload :: rest =>
      report label flushes room payload.length ::
        reports label flushes (room - (Frame.encode payload).length) rest

theorem writeFrames_eq {sink : Sink} {payloads : List Bytes} {room : Nat} (label : String)
    (hsizes : ∀ payload ∈ payloads, payload.length < 0x100000000) (hroom : sink.room = some room) :
    (sink.writeFrames label payloads).1 = reports label sink.flushes room payloads ∧
      (sink.writeFrames label payloads).2.arrived =
        sink.arrived ++ (payloads.flatMap Frame.encode).take room := by
  induction payloads generalizing sink room with
  | nil => exact ⟨rfl, by simp [writeFrames]⟩
  | cons payload rest ih =>
      rcases writeFrame_eq label (hsizes payload List.mem_cons_self) hroom with
        ⟨between, hwrite, hbytes, hleft, hflushes⟩
      obtain ⟨houtcomes, harrived⟩ := ih (fun p hp => hsizes p (List.mem_cons_of_mem _ hp)) hleft
      rw [writeFrames, hwrite]
      refine ⟨?_, ?_⟩
      · simp only [houtcomes, hflushes, reports]
      · simp only [harrived, hbytes, List.flatMap_cons, List.take_append, List.append_assoc]

theorem length_reports (label : String) (flushes : Bool) (room : Nat) (payloads : List Bytes) :
    (reports label flushes room payloads).length = payloads.length := by
  induction payloads generalizing room with
  | nil => rfl
  | cons payload rest ih => rw [reports, List.length_cons, List.length_cons, ih]

/-- The place in the stream of all frames where the frame of a number begins. -/
def begins (payloads : List Bytes) (i : Nat) : Nat :=
  ((payloads.take i).flatMap Frame.encode).length

theorem begins_succ {payloads : List Bytes} {i : Nat} {payload : Bytes}
    (h : payloads[i]? = some payload) :
    begins payloads (i + 1) = begins payloads i + (4 + payload.length) := by
  rw [begins, List.take_add_one, h, Option.toList_some, List.flatMap_append, List.length_append,
    List.flatMap_singleton, Frame.length_encode, begins]

theorem begins_mono (payloads : List Bytes) {i j : Nat} (h : i ≤ j) :
    begins payloads i ≤ begins payloads j := by
  obtain ⟨more, rfl⟩ := Nat.exists_eq_add_of_le h
  rw [begins, begins, List.take_add, List.flatMap_append, List.length_append]
  exact Nat.le_add_right _ _

/-- A frame's report is that of the room left where it begins. -/
theorem getElem?_reports (label : String) (flushes : Bool) (room i : Nat) (payloads : List Bytes) :
    (reports label flushes room payloads)[i]? =
      payloads[i]?.map fun payload =>
        report label flushes (room - begins payloads i) payload.length := by
  induction payloads generalizing room i with
  | nil => rfl
  | cons payload rest ih =>
      cases i with
      | zero => rfl
      | succ i =>
          have hbegins : begins (payload :: rest) (i + 1) =
              (Frame.encode payload).length + begins rest i := by
            rw [begins, List.take_succ_cons, List.flatMap_cons, List.length_append, begins]
          rw [reports, List.getElem?_cons_succ, List.getElem?_cons_succ, ih, hbegins,
            Nat.sub_sub]

/-! ## A sink that fills up -/

theorem arrived_of_cut {sink : Sink} {payloads : List Bytes} {room i : Nat} (label : String)
    (hroom : sink.room = some room) (hsizes : ∀ payload ∈ payloads, payload.length < 0x100000000)
    (hcut : room < begins payloads (i + 1)) :
    (sink.writeFrames label payloads).2.arrived =
      (sink.writeFrames label (payloads.take (i + 1))).2.arrived := by
  have hfirst : ∀ payload ∈ payloads.take (i + 1), payload.length < 0x100000000 :=
    fun payload hpayload => hsizes payload (List.mem_of_mem_take hpayload)
  have hstream : payloads.flatMap Frame.encode =
      (payloads.take (i + 1)).flatMap Frame.encode ++
        (payloads.drop (i + 1)).flatMap Frame.encode := by
    rw [← List.flatMap_append, List.take_append_drop]
  rw [(writeFrames_eq label hsizes hroom).right, (writeFrames_eq label hfirst hroom).right, hstream,
    List.take_append_of_le_length (Nat.le_of_lt hcut)]

theorem writeFrames_unflushed {sink : Sink} {payloads : List Bytes} {room : Nat} (label : String)
    (hroom : sink.room = some room) (hsizes : ∀ payload ∈ payloads, payload.length < 0x100000000)
    (hwhole : (payloads.flatMap Frame.encode).length ≤ room) (hflushes : sink.flushes = false) :
    (sink.writeFrames label payloads).2.arrived =
        sink.arrived ++ payloads.flatMap Frame.encode ∧
      (sink.writeFrames label payloads).1 =
        payloads.map fun _ => .error (.unflushed label .flushRefused) := by
  have hrefused : handedOn label sink.flushes = .error (.unflushed label .flushRefused) := by
    rw [hflushes]
    rfl
  rcases writeFrames_whole label hsizes (forall_room_of_le hroom hwhole) with ⟨after, hwrite, hall⟩
  rw [hwrite, hrefused]
  exact ⟨hall, rfl⟩

/-- What arrives is the front of the stream of all frames, as much of it as there is room for.  A
frame is handed on exactly if the stream up to its end fits; the first one that does not fit says
whether it was cut off in its size or in its payload, and nothing of those after it arrives. -/
theorem frames_fill_a_sink (label : String) {sink : Sink} {room : Nat} {payloads : List Bytes}
    (hroom : sink.room = some room)
    (hsizes : ∀ payload ∈ payloads, payload.length < 0x100000000) :
    let stream := payloads.flatMap Frame.encode
    let outcomes := (sink.writeFrames label payloads).1
    let arrived := (sink.writeFrames label payloads).2.arrived
    arrived = sink.arrived ++ stream.take (min room stream.length) ∧
      outcomes.length = payloads.length ∧
      (∀ i outcome, outcomes[i]? = some outcome →
        (outcome = .ok () ↔ begins payloads (i + 1) ≤ room ∧ sink.flushes = true) ∧
        (begins payloads (i + 1) ≤ room → sink.flushes = false →
          outcome = .error (.unflushed label .flushRefused)) ∧
        (room < begins payloads i + 4 → outcome = .error (.unwritten label .length .full)) ∧
        (begins payloads i + 4 ≤ room → room < begins payloads (i + 1) →
          outcome = .error (.unwritten label .data .full))) ∧
      (∀ i, room < begins payloads (i + 1) →
        arrived = (sink.writeFrames label (payloads.take (i + 1))).2.arrived ∧
        ∀ j outcome, i < j → outcomes[j]? = some outcome →
          outcome = .error (.unwritten label .length .full)) ∧
      (stream.length ≤ room → sink.flushes = false →
        arrived = sink.arrived ++ stream ∧
          outcomes = payloads.map fun _ => .error (.unflushed label .flushRefused)) ∧
      (FrameFault.unwritten label .length .full).message =
        label ++ " write length failed: sink full" ∧
      (FrameFault.unwritten label .data .full).message = label ++ " write data failed: sink full" ∧
      (FrameFault.unflushed label .flushRefused).message =
        label ++ " flush failed: flush refused" := by
  intro stream outcomes arrived
  have houtcomes : outcomes = reports label sink.flushes room payloads :=
    (writeFrames_eq label hsizes hroom).left
  have harrived : arrived = sink.arrived ++ stream.take room :=
    (writeFrames_eq label hsizes hroom).right
  have hreport {i : Nat} {outcome : Except FrameFault Unit} (h : outcomes[i]? = some outcome) :
      ∃ payload, payloads[i]? = some payload ∧
        outcome = report label sink.flushes (room - begins payloads i) payload.length := by
    rw [houtcomes, getElem?_reports] at h
    rcases Option.map_eq_some_iff.mp h with ⟨payload, hpayload, rfl⟩
    exact ⟨payload, hpayload, rfl⟩
  refine ⟨?_, ?_, ?_, ?_, ?_, FrameFault.message_unwritten label .length .full,
    FrameFault.message_unwritten label .data .full,
    FrameFault.message_unflushed label .flushRefused⟩
  · rw [harrived, ← List.take_take, List.take_length]
  · rw [houtcomes, length_reports]
  · intro i outcome h
    obtain ⟨payload, hpayload, rfl⟩ := hreport h
    rw [begins_succ hpayload]
    exact report_cases label sink.flushes room (begins payloads i) payload.length
  · intro i hcut
    refine ⟨arrived_of_cut label hroom hsizes hcut, ?_⟩
    intro j outcome hlater h
    obtain ⟨payload, _, rfl⟩ := hreport h
    have hbehind := Nat.lt_of_lt_of_le hcut (begins_mono payloads hlater)
    rw [report, if_pos (by omega)]
  · exact writeFrames_unflushed label hroom hsizes

theorem third_frame_is_cut_off :
    let sink : Sink := ⟨fun n => n, 0, some 15, true, []⟩
    let payloads : List Bytes := [[1, 2], [], [3, 4, 5], [6]]
    sink.room = some 15 ∧ (∀ payload ∈ payloads, payload.length < 0x100000000) ∧
      (sink.writeFrames "Mock" payloads).2.arrived =
        [2, 0, 0, 0, 1, 2, 0, 0, 0, 0, 3, 0, 0, 0, 3] ∧
      ∀ first second third fourth,
        (sink.writeFrames "Mock" payloads).1 = [first, second, third, fourth] →
          first = .ok () ∧ second = .ok () ∧ third = .error (.unwritten "Mock" .data .full) ∧
            fourth = .error (.unwritten "Mock" .length .full) := by
  intro sink payloads
  have hsizes : ∀ payload ∈ payloads, payload.length < 0x100000000 := by decide
  obtain ⟨harrived, _, hreports, hlater, _⟩ :=
    frames_fill_a_sink "Mock" (show sink.room = some 15 from rfl) hsizes
  refine ⟨rfl, hsizes, harrived.trans (by decide), ?_⟩
  intro first second third fourth h
  rw [h] at hreports hlater
  exact ⟨(hreports 0 first rfl).left.mpr (by decide), (hreports 1 second rfl).left.mpr (by decide),
    (hreports 2 third rfl).right.right.right (by decide) (by decide),
    (hlater 2 (by decide)).right 3 fourth (by decide) rfl⟩

end Sink
end Engine
end Cardsmith
