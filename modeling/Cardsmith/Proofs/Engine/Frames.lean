import Mathlib.Data.List.Basic
import Cardsmith.Engine.Sink

/-!
# Frames out of a stream

Reading takes a stream apart into the frames at its front and a rest that no frame can be read
from.  The pieces in which the stream comes do not matter, and the rest alone decides the fault.
What a sink took from writing frames is read back as those frames.
-/

namespace Cardsmith
namespace Engine

def FrameFault.settled (hungUp : Bool) : FrameFault → Bool
  | .cutOff _ _ => hungUp
  | .tooLarge _ | .unwritten _ _ _ | .unflushed _ _ => true

theorem length_le_length_flatMap {α β : Type} {f : α → List β} (h : ∀ a, f a ≠ [])
    (xs : List α) : xs.length ≤ (xs.flatMap f).length := by
  induction xs with
  | nil => exact Nat.zero_le _
  | cons x rest ih =>
      have hfirst := List.length_pos_of_ne_nil (h x)
      rw [List.flatMap_cons, List.length_append, List.length_cons]
      omega

namespace Frame

/-! ## Sizes in four bytes -/

theorem length_header (size : Nat) : (header size).length = 4 := rfl

theorem number_header {size : Nat} (h : size < 0x100000000) : number (header size) = size := by
  simp only [header, number, UInt8.toNat_ofNat']
  omega

theorem header_number {bytes : Bytes} (h : bytes.length = 4) : header (number bytes) = bytes := by
  rcases bytes with _ | ⟨a, _ | ⟨b, _ | ⟨c, _ | ⟨d, _ | ⟨_, _⟩⟩⟩⟩⟩
  case cons.cons.cons.cons.nil =>
    have ha := a.toNat_lt
    have hb := b.toNat_lt
    have hc := c.toNat_lt
    have hd := d.toNat_lt
    simp only [header, number, List.cons.injEq, and_true, ← UInt8.toNat_inj, UInt8.toNat_ofNat']
    omega
  all_goals simp at h

theorem length_encode (payload : Bytes) : (encode payload).length = 4 + payload.length := by
  rw [encode, List.length_append, length_header]

/-! ## Taking bytes from pieces -/

theorem take?_of_le {n : Nat} {pieces : List Bytes} (h : n ≤ pieces.flatten.length) :
    ∃ left, take? n pieces = some (pieces.flatten.take n, left) ∧
      left.flatten = pieces.flatten.drop n := by
  induction pieces generalizing n with
  | nil =>
      have hzero : n = 0 := Nat.le_zero.mp h
      rw [hzero]
      exact ⟨[], rfl, rfl⟩
  | cons piece rest ih =>
      cases n with
      | zero => exact ⟨piece :: rest, rfl, rfl⟩
      | succ n =>
          by_cases hlt : n + 1 < piece.length
          · refine ⟨piece.drop (n + 1) :: rest, ?_, ?_⟩
            · rw [take?, if_pos hlt, List.flatten_cons, List.take_append_of_le_length (by omega)]
            · rw [List.flatten_cons, List.flatten_cons, List.drop_append_of_le_length (by omega)]
          · have hpiece : piece.length ≤ n + 1 := Nat.le_of_not_lt hlt
            rw [List.flatten_cons, List.length_append] at h
            rcases ih (n := n + 1 - piece.length) (by omega) with ⟨left, htake, hdrop⟩
            refine ⟨left, ?_, ?_⟩
            · rw [take?, if_neg hlt, htake, List.flatten_cons, List.take_append,
                List.take_of_length_le hpiece, Option.map_some]
            · rw [hdrop, List.flatten_cons, List.drop_append, List.drop_of_length_le hpiece,
                List.nil_append]

theorem take?_eq_none {n : Nat} {pieces : List Bytes} (h : pieces.flatten.length < n) :
    take? n pieces = none := by
  induction pieces generalizing n with
  | nil =>
      cases n with
      | zero => cases h
      | succ n => rfl
  | cons piece rest ih =>
      rw [List.flatten_cons, List.length_append] at h
      cases n with
      | zero => cases h
      | succ n =>
          rw [take?, if_neg (by omega), ih (by omega), Option.map_none]

/-! ## One frame -/

def declared (stream : Bytes) : Nat := number (stream.take 4)

/-- No frame can be read from the front of a stream: there is no size, it is too large, or there
are not as many bytes after it. -/
def Unfinished (stream : Bytes) : Prop :=
  stream.length < 4 ∨ maxSize < declared stream ∨ stream.length < 4 + declared stream

def ending (label : String) (stream : Bytes) : FrameFault :=
  if stream.length < 4 then .cutOff label .length
  else if maxSize < declared stream then .tooLarge (declared stream)
  else .cutOff label .data

theorem message_cutOff_length (label : String) :
    (FrameFault.cutOff label .length).message = label ++ " read length failed: early eof" := by
  have htext : " read length failed: early eof" = " read " ++ ("length" ++ " failed: early eof") :=
    rfl
  rw [htext, ← String.append_assoc, ← String.append_assoc]
  rfl

theorem message_cutOff_data (label : String) :
    (FrameFault.cutOff label .data).message = label ++ " read data failed: early eof" := by
  have htext : " read data failed: early eof" = " read " ++ ("data" ++ " failed: early eof") := rfl
  rw [htext, ← String.append_assoc, ← String.append_assoc]
  rfl

theorem message_ending (label : String) (stream : Bytes) :
    (ending label stream).message =
      if stream.length < 4 then label ++ " read length failed: early eof"
      else if maxSize < declared stream then s!"Message too large: {declared stream} bytes"
      else label ++ " read data failed: early eof" := by
  unfold ending
  split_ifs with hshort hlarge
  · exact message_cutOff_length label
  · rfl
  · exact message_cutOff_data label

theorem declared_encode_append {payload : Bytes} (h : payload.length < 0x100000000)
    (rest : Bytes) : declared (encode payload ++ rest) = payload.length := by
  rw [declared, encode, List.append_assoc,
    List.take_left' (length_header payload.length), number_header h]

theorem lt_of_le_maxSize {n : Nat} (h : n ≤ maxSize) : n < 0x100000000 := by
  unfold maxSize at h
  omega

theorem read_encode_append (label : String) {pieces : List Bytes} {payload rest : Bytes}
    (h : pieces.flatten = encode payload ++ rest) (hsize : payload.length ≤ maxSize) :
    ∃ left, read label pieces = .ok (payload, left) ∧ left.flatten = rest := by
  have hdeclared : number (pieces.flatten.take 4) = payload.length := by
    rw [h]
    exact declared_encode_append (lt_of_le_maxSize hsize) rest
  have hlength : pieces.flatten.length = 4 + payload.length + rest.length := by
    rw [h, List.length_append, length_encode]
  have hheader : 4 ≤ pieces.flatten.length := by omega
  rcases take?_of_le hheader with ⟨body, hbody, hafter⟩
  have hbodyStream : body.flatten = payload ++ rest := by
    rw [hafter, h, encode, List.append_assoc, List.drop_left' (length_header payload.length)]
  have hbodyLength : body.flatten.length = payload.length + rest.length := by
    rw [hbodyStream, List.length_append]
  have hwhole : payload.length ≤ body.flatten.length := by omega
  rcases take?_of_le hwhole with ⟨left, hleft, hrest⟩
  refine ⟨left, ?_, ?_⟩
  · simp only [read, hbody, hdeclared, hleft]
    rw [if_neg (by omega), hbodyStream, List.take_left]
  · rw [hrest, hbodyStream, List.drop_left]

theorem read_unfinished {pieces : List Bytes} (label : String)
    (h : Unfinished pieces.flatten) :
    read label pieces = .error (ending label pieces.flatten) := by
  by_cases hshort : pieces.flatten.length < 4
  · rw [read, take?_eq_none hshort, ending, if_pos hshort]
  · have hheader : 4 ≤ pieces.flatten.length := Nat.le_of_not_lt hshort
    rcases take?_of_le hheader with ⟨body, hbody, hafter⟩
    have hnumber : number (pieces.flatten.take 4) = declared pieces.flatten := rfl
    simp only [read, hbody, hnumber, ending, if_neg hshort]
    by_cases hlarge : maxSize < declared pieces.flatten
    · rw [if_pos hlarge, if_pos hlarge]
    · have hcut : body.flatten.length < declared pieces.flatten := by
        rw [hafter, List.length_drop]
        rcases h with h | h | h <;> omega
      rw [if_neg hlarge, if_neg hlarge, take?_eq_none hcut]

theorem read_nothing (label : String) : read label [[]] = .error (.cutOff label .length) := rfl

theorem unfinished_or_encode (stream : Bytes) :
    Unfinished stream ∨
      ∃ payload rest, stream = encode payload ++ rest ∧ payload.length ≤ maxSize := by
  by_cases h : Unfinished stream
  · exact Or.inl h
  · simp only [Unfinished, not_or, Nat.not_lt] at h
    obtain ⟨hlength, hsize, hdata⟩ := h
    have hfour : (stream.take 4).length = 4 := List.length_take_of_le hlength
    have hpayload : ((stream.drop 4).take (declared stream)).length = declared stream := by
      rw [List.length_take, List.length_drop]
      omega
    refine Or.inr ⟨(stream.drop 4).take (declared stream), (stream.drop 4).drop (declared stream),
      ?_, by omega⟩
    rw [encode, hpayload, declared, header_number hfour, List.append_assoc, List.take_append_drop,
      List.take_append_drop]

/-! ## Streams that are lost -/

/-- No frame can be read from the front of a stream, whatever comes: its size is too large, or
nothing comes any more. -/
def Lost (ended : Bool) (stream : Bytes) : Prop :=
  4 ≤ stream.length ∧ maxSize < declared stream ∨ ended = true ∧ Unfinished stream

theorem Lost.unfinished {ended : Bool} {stream : Bytes} (h : Lost ended stream) :
    Unfinished stream := by
  rcases h with ⟨_, hlarge⟩ | ⟨_, hunfinished⟩
  · exact Or.inr (Or.inl hlarge)
  · exact hunfinished

theorem Lost.hungUp {ended : Bool} {stream : Bytes} (h : Lost ended stream) : Lost true stream :=
  h.imp_right fun hended => ⟨rfl, hended.right⟩

theorem Lost.append {stream : Bytes} (h : Lost false stream) (label : String) (ended : Bool)
    (more : Bytes) :
    Lost ended (stream ++ more) ∧ ending label (stream ++ more) = ending label stream := by
  rcases h with ⟨hlength, hlarge⟩ | ⟨hended, _⟩
  · have hdeclared : declared (stream ++ more) = declared stream := by
      rw [declared, declared, List.take_append_of_le_length hlength]
    have hlonger : 4 ≤ (stream ++ more).length := by
      rw [List.length_append]
      exact Nat.le_add_right_of_le hlength
    refine ⟨Or.inl ⟨hlonger, hdeclared ▸ hlarge⟩, ?_⟩
    rw [ending, ending, if_neg (Nat.not_lt.mpr hlonger), if_neg (Nat.not_lt.mpr hlength), hdeclared,
      if_pos hlarge]
  · cases hended

theorem read_eq_error_iff {label : String} {stream : Bytes} {fault : FrameFault} :
    read label [stream] = .error fault ↔ Unfinished stream ∧ fault = ending label stream := by
  have hflat : [stream].flatten = stream := List.flatten_singleton
  constructor
  · intro hread
    rcases unfinished_or_encode stream with hunfinished | ⟨payload, rest, hstream, hsize⟩
    · rw [read_unfinished label (hflat.symm ▸ hunfinished), hflat] at hread
      exact ⟨hunfinished, (Except.error.inj hread).symm⟩
    · rcases read_encode_append label (hflat.trans hstream) hsize with ⟨left, hfound, _⟩
      cases hfound.symm.trans hread
  · rintro ⟨hunfinished, rfl⟩
    rw [read_unfinished label (hflat.symm ▸ hunfinished), hflat]

theorem read_settled_iff {label : String} {stream : Bytes} {ended : Bool} {fault : FrameFault} :
    (read label [stream] = .error fault ∧ fault.settled ended = true) ↔
      fault = ending label stream ∧ Lost ended stream := by
  have hsettled (h : Unfinished stream) :
      (ending label stream).settled ended = true ↔ Lost ended stream := by
    unfold ending Lost
    split_ifs with hshort hlarge
    · simp [FrameFault.settled, h, Nat.not_le.mpr hshort]
    · simp [FrameFault.settled, hlarge, Nat.le_of_not_lt hshort]
    · simp [FrameFault.settled, h, hlarge]
  constructor
  · rintro ⟨hread, hfault⟩
    obtain ⟨hunfinished, rfl⟩ := read_eq_error_iff.mp hread
    exact ⟨rfl, (hsettled hunfinished).mp hfault⟩
  · rintro ⟨rfl, hlost⟩
    exact ⟨read_eq_error_iff.mpr ⟨hlost.unfinished, rfl⟩, (hsettled hlost.unfinished).mpr hlost⟩

/-! ## Whole streams -/

theorem readUpTo_frames {label : String} {payloads : List Bytes} {rest : Bytes}
    (hsizes : ∀ payload ∈ payloads, payload.length ≤ maxSize) (hrest : Unfinished rest)
    {limit : Nat} {pieces : List Bytes}
    (h : pieces.flatten = payloads.flatMap encode ++ rest) (hlimit : payloads.length < limit) :
    readUpTo label limit pieces = (payloads, ending label rest) := by
  induction payloads generalizing limit pieces with
  | nil =>
      rw [List.flatMap_nil, List.nil_append] at h
      cases limit with
      | zero => cases hlimit
      | succ limit =>
          rw [← h] at hrest
          rw [readUpTo, read_unfinished label hrest, h]
  | cons payload payloads ih =>
      cases limit with
      | zero => cases hlimit
      | succ limit =>
          rw [List.flatMap_cons, List.append_assoc] at h
          rcases read_encode_append label h (hsizes payload List.mem_cons_self)
            with ⟨left, hread, hleft⟩
          have hmore := ih (fun p hp => hsizes p (List.mem_cons_of_mem _ hp)) hleft
            (Nat.lt_of_succ_lt_succ hlimit)
          rw [readUpTo, hread]
          simp only [hmore]

/-- Every stream is a number of frames and a rest that no frame can be read from. -/
theorem exists_frames (stream : Bytes) :
    ∃ (payloads : List Bytes) (rest : Bytes), stream = payloads.flatMap encode ++ rest ∧
      (∀ payload ∈ payloads, payload.length ≤ maxSize) ∧ Unfinished rest := by
  induction hlength : stream.length using Nat.strongRecOn generalizing stream with
  | _ n ih =>
      rcases unfinished_or_encode stream with hend | ⟨payload, rest, hstream, hsize⟩
      · exact ⟨[], stream, rfl, fun _ h => absurd h List.not_mem_nil, hend⟩
      · have hshorter : rest.length < n := by
          rw [← hlength, hstream, List.length_append, length_encode]
          omega
        rcases ih rest.length hshorter rest rfl with ⟨payloads, last, hrest, hsizes, hend⟩
        refine ⟨payload :: payloads, last, ?_, ?_, hend⟩
        · rw [hstream, hrest, List.flatMap_cons, List.append_assoc]
        · exact List.forall_mem_cons.mpr ⟨hsize, hsizes⟩

theorem length_le_length_flatMap_encode (payloads : List Bytes) :
    payloads.length ≤ (payloads.flatMap encode).length :=
  length_le_length_flatMap (fun _ => List.cons_ne_nil _ _) payloads

theorem readAll_frames {payloads : List Bytes} {rest : Bytes} (label : String)
    (hsizes : ∀ payload ∈ payloads, payload.length ≤ maxSize) (hrest : Unfinished rest)
    {pieces : List Bytes} (h : pieces.flatten = payloads.flatMap encode ++ rest) :
    readAll label pieces = (payloads, ending label rest) := by
  have hlength := length_le_length_flatMap_encode payloads
  have hlimit : payloads.length < pieces.flatten.length + 1 := by
    rw [h, List.length_append]
    omega
  exact readUpTo_frames hsizes hrest h hlimit

theorem readAll_eq_iff {label : String} {pieces payloads : List Bytes} {fault : FrameFault} :
    readAll label pieces = (payloads, fault) ↔
      ∃ rest, pieces.flatten = payloads.flatMap encode ++ rest ∧
        (∀ payload ∈ payloads, payload.length ≤ maxSize) ∧
        Unfinished rest ∧ fault = ending label rest := by
  constructor
  · intro hread
    rcases exists_frames pieces.flatten with ⟨found, rest, hstream, hsizes, hrest⟩
    rw [readAll_frames label hsizes hrest hstream] at hread
    cases hread
    exact ⟨rest, hstream, hsizes, hrest, rfl⟩
  · rintro ⟨rest, hstream, hsizes, hrest, rfl⟩
    exact readAll_frames label hsizes hrest hstream

/-! ## Streams that are still written -/

/-- No frame is whole at the front of a stream, however large a frame may be. -/
def Cut (stream : Bytes) : Prop := stream.length < 4 ∨ stream.length < 4 + declared stream

def Carries (stream : Bytes) (payloads : List Bytes) : Prop :=
  ∃ rest, stream = payloads.flatMap encode ++ rest ∧
    (∀ payload ∈ payloads, payload.length < 0x100000000) ∧ Cut rest

theorem not_cut_encode_append {payload : Bytes} (h : payload.length < 0x100000000)
    (rest : Bytes) : ¬ Cut (encode payload ++ rest) := by
  unfold Cut
  rw [declared_encode_append h, List.length_append, length_encode]
  omega

theorem cut_of_append_eq_encode {payload done left : Bytes} (h : payload.length < 0x100000000)
    (hwhole : done ++ left = encode payload) (hleft : left ≠ []) : Cut done := by
  have hlength : done.length + left.length = 4 + payload.length := by
    rw [← List.length_append, hwhole, length_encode]
  have hmore : 0 < left.length := List.length_pos_iff.mpr hleft
  by_cases hshort : done.length < 4
  · exact Or.inl hshort
  · have hdeclared : declared done = payload.length := by
      rw [← declared_encode_append h [], List.append_nil, ← hwhole, declared, declared,
        List.take_append_of_le_length (Nat.le_of_not_lt hshort)]
    refine Or.inr ?_
    omega

theorem Carries.unique {stream : Bytes} {first second : List Bytes} (h : Carries stream first)
    (h' : Carries stream second) : first = second := by
  rcases h with ⟨rest, hstream, hsizes, hrest⟩
  rcases h' with ⟨rest', hstream', hsizes', hrest'⟩
  rw [hstream] at hstream'
  clear hstream
  induction first generalizing second with
  | nil =>
      cases second with
      | nil => rfl
      | cons payload later =>
          rw [List.flatMap_nil, List.nil_append, List.flatMap_cons, List.append_assoc] at hstream'
          rw [hstream'] at hrest
          exact absurd hrest (not_cut_encode_append (hsizes' payload List.mem_cons_self) _)
  | cons payload later ih =>
      have hsize := hsizes payload List.mem_cons_self
      cases second with
      | nil =>
          rw [List.flatMap_nil, List.nil_append, List.flatMap_cons, List.append_assoc] at hstream'
          rw [← hstream'] at hrest'
          exact absurd hrest' (not_cut_encode_append hsize _)
      | cons payload' later' =>
          rw [List.flatMap_cons, List.flatMap_cons, List.append_assoc, List.append_assoc]
            at hstream'
          have hsize' := hsizes' payload' List.mem_cons_self
          have hdeclared := congrArg declared hstream'
          rw [declared_encode_append hsize, declared_encode_append hsize'] at hdeclared
          have hlength : (encode payload).length = (encode payload').length := by
            rw [length_encode, length_encode, hdeclared]
          rcases List.append_inj hstream' hlength with ⟨hencode, hlater⟩
          rw [encode, encode, hdeclared] at hencode
          rw [List.append_cancel_left hencode,
            ih (fun p hp => hsizes p (List.mem_cons_of_mem _ hp)) hlater
              (fun p hp => hsizes' p (List.mem_cons_of_mem _ hp))]

end Frame

/-! ## Writing -/

namespace Sink

theorem arrived_cons (sink : Sink) (writes : Nat) (room : Option Nat) (piece : Bytes) :
    arrived { sink with writes := writes, room := room, pieces := piece :: sink.pieces } =
      sink.arrived ++ piece := by
  simp [arrived]

theorem portion_bounds {sink : Sink} {offered : Nat} (hoffered : 0 < offered)
    (hroom : sink.room ≠ some 0) :
    0 < sink.portion offered ∧ sink.portion offered ≤ offered ∧
      ∀ room ∈ sink.room, sink.portion offered ≤ room := by
  unfold portion
  cases hlimit : sink.room with
  | none =>
      refine ⟨?_, ?_, fun room hmem => by cases hmem⟩
      · simp only
        omega
      · simp only
        omega
  | some room =>
      have hsome : room ≠ 0 := fun hzero => hroom (hzero ▸ hlimit)
      refine ⟨?_, ?_, ?_⟩
      · simp only
        omega
      · simp only
        omega
      · intro limit hmem
        cases hmem
        exact Nat.min_le_left _ _

theorem write?_of_room {sink : Sink} {offered : Bytes} (hoffered : offered ≠ [])
    (hroom : sink.room ≠ some 0) :
    ∃ n after, sink.write? offered = some (offered.drop n, after) ∧ 0 < n ∧
      n ≤ offered.length ∧ (∀ room ∈ sink.room, n ≤ room) ∧
      after.arrived = sink.arrived ++ offered.take n ∧
      after.room = sink.room.map (· - n) ∧ after.flushes = sink.flushes := by
  obtain ⟨hpos, hle, hlimit⟩ := portion_bounds (List.length_pos_iff.mpr hoffered) hroom
  refine ⟨sink.portion offered.length,
    { sink with
      writes := sink.writes + 1
      room := sink.room.map (· - sink.portion offered.length)
      pieces := offered.take (sink.portion offered.length) :: sink.pieces },
    ?_, hpos, hle, hlimit, ?_, rfl, rfl⟩
  · rw [write?, if_neg hroom]
  · exact arrived_cons _ _ _ _

theorem writeUpTo_of_room {limit : Nat} {sink : Sink} {bytes : Bytes}
    (hlimit : bytes.length ≤ limit) (hroom : ∀ room ∈ sink.room, bytes.length ≤ room) :
    ∃ after, writeUpTo limit sink bytes = (true, after) ∧
      after.arrived = sink.arrived ++ bytes ∧
      after.room = sink.room.map (· - bytes.length) ∧ after.flushes = sink.flushes := by
  induction limit generalizing sink bytes with
  | zero =>
      rw [List.length_eq_zero_iff.mp (Nat.le_zero.mp hlimit)]
      exact ⟨sink, rfl, by simp, by simp, rfl⟩
  | succ limit ih =>
      cases bytes with
      | nil => exact ⟨sink, rfl, by simp, by simp, rfl⟩
      | cons b rest =>
          have hsome : sink.room ≠ some 0 :=
            fun hzero => absurd (hroom 0 hzero) (Nat.not_succ_le_zero _)
          rcases write?_of_room (List.cons_ne_nil b rest) hsome with
            ⟨n, between, hwrite, hpos, hle, _, harrived, hbetween, hflushes⟩
          have hleft : ((b :: rest).drop n).length = (b :: rest).length - n := List.length_drop
          have hmore : ∀ room ∈ between.room, ((b :: rest).drop n).length ≤ room := by
            intro room hmem
            rw [hbetween] at hmem
            rcases Option.map_eq_some_iff.mp hmem with ⟨before, hbefore, rfl⟩
            have := hroom before hbefore
            omega
          rcases ih (by omega) hmore with ⟨after, hrest, hall, hroomAfter, hflushesAfter⟩
          refine ⟨after, ?_, ?_, ?_, ?_⟩
          · rw [writeUpTo, hwrite]
            exact hrest
          · rw [hall, harrived, List.append_assoc, List.take_append_drop]
          · rw [hroomAfter, hbetween, Option.map_map, hleft]
            congr 1
            funext room
            simp only [Function.comp_apply]
            omega
          · rw [hflushesAfter, hflushes]

def handedOn (label : String) (flushes : Bool) : Except FrameFault Unit :=
  if flushes then .ok () else .error (.unflushed label .flushRefused)

theorem writeFrame_of_room {sink : Sink} {payload : Bytes} (label : String)
    (hsize : payload.length < 0x100000000)
    (hroom : ∀ room ∈ sink.room, (Frame.encode payload).length ≤ room) :
    ∃ after, writeFrame label sink payload = (handedOn label sink.flushes, after) ∧
      after.arrived = sink.arrived ++ Frame.encode payload ∧
      after.room = sink.room.map (· - (Frame.encode payload).length) ∧
      after.flushes = sink.flushes := by
  rw [Frame.length_encode] at hroom ⊢
  have hfour := Frame.length_header payload.length
  have hheaderRoom : ∀ room ∈ sink.room, (Frame.header payload.length).length ≤ room := by
    intro room hmem
    have := hroom room hmem
    omega
  rcases writeUpTo_of_room (Nat.le_refl _) hheaderRoom with
    ⟨between, hheader, hbytes, hleft, hflush⟩
  have hdataRoom : ∀ room ∈ between.room, payload.length ≤ room := by
    intro room hmem
    rw [hleft] at hmem
    rcases Option.map_eq_some_iff.mp hmem with ⟨before, hbefore, rfl⟩
    have := hroom before hbefore
    omega
  rcases writeUpTo_of_room (Nat.le_refl _) hdataRoom with
    ⟨after, hdata, hall, hrest, hflushAfter⟩
  have hflushed : after.flushes = sink.flushes := hflushAfter.trans hflush
  refine ⟨after, ?_, ?_, ?_, hflushed⟩
  · rw [writeFrame, if_neg (by omega), writeAll, hheader]
    simp only [writeAll, hdata, hflushed, handedOn]
    cases sink.flushes <;> rfl
  · rw [hall, hbytes, Frame.encode, List.append_assoc]
  · rw [hrest, hleft, Option.map_map, hfour]
    congr 1
    funext room
    simp only [Function.comp_apply]
    omega

theorem writeFrames_whole {sink : Sink} {payloads : List Bytes} (label : String)
    (hsizes : ∀ payload ∈ payloads, payload.length < 0x100000000)
    (hroom : ∀ room ∈ sink.room, (payloads.flatMap Frame.encode).length ≤ room) :
    ∃ after, writeFrames label sink payloads =
        (payloads.map fun _ => handedOn label sink.flushes, after) ∧
      after.arrived = sink.arrived ++ payloads.flatMap Frame.encode := by
  induction payloads generalizing sink with
  | nil => exact ⟨sink, rfl, by simp⟩
  | cons payload rest ih =>
      rw [List.flatMap_cons, List.length_append] at hroom
      have hfirst : ∀ room ∈ sink.room, (Frame.encode payload).length ≤ room := by
        intro room hmem
        have := hroom room hmem
        omega
      rcases writeFrame_of_room label (hsizes payload List.mem_cons_self) hfirst with
        ⟨between, hwrite, hbytes, hleft, hflushes⟩
      have hmore : ∀ room ∈ between.room, (rest.flatMap Frame.encode).length ≤ room := by
        intro room hmem
        rw [hleft] at hmem
        rcases Option.map_eq_some_iff.mp hmem with ⟨before, hbefore, rfl⟩
        have := hroom before hbefore
        omega
      rcases ih (fun p hp => hsizes p (List.mem_cons_of_mem _ hp)) hmore with
        ⟨after, hrest, hall⟩
      refine ⟨after, ?_, ?_⟩
      · rw [writeFrames, hwrite]
        simp only [hrest, hflushes, List.map_cons]
      · rw [hall, hbytes, List.flatMap_cons, List.append_assoc]

theorem writeFrames_of_room {sink : Sink} {payloads : List Bytes} (label : String)
    (hsizes : ∀ payload ∈ payloads, payload.length ≤ Frame.maxSize)
    (hroom : ∀ room ∈ sink.room, (payloads.flatMap Frame.encode).length ≤ room)
    (hflushes : sink.flushes = true) :
    ∃ after, writeFrames label sink payloads = (payloads.map fun _ => .ok (), after) ∧
      after.arrived = sink.arrived ++ payloads.flatMap Frame.encode := by
  have hwhole := writeFrames_whole label
    (fun payload hpayload => Frame.lt_of_le_maxSize (hsizes payload hpayload)) hroom
  rw [hflushes] at hwhole
  exact hwhole

end Sink

/-! ## Reading what was written -/

namespace Frame

/-- Reading gives exactly the frames at the front of a stream, in whatever pieces it comes, and
the fault at the rest; what a sink took from writing frames is read back as those frames. -/
theorem readAll_inverts_writeFrames (label : String) :
    (∀ pieces payloads fault,
      readAll label pieces = (payloads, fault) ↔
        ∃ rest, pieces.flatten = payloads.flatMap encode ++ rest ∧
          (∀ payload ∈ payloads, payload.length ≤ maxSize) ∧
          Unfinished rest ∧ fault = ending label rest) ∧
    (∀ rest,
      (ending label rest).message =
        if rest.length < 4 then label ++ " read length failed: early eof"
        else if maxSize < declared rest then s!"Message too large: {declared rest} bytes"
        else label ++ " read data failed: early eof") ∧
    (∀ (sink : Sink) (payloads : List Bytes),
      (∀ payload ∈ payloads, payload.length ≤ maxSize) →
      (∀ room ∈ sink.room, (payloads.flatMap encode).length ≤ room) →
      sink.flushes = true →
      ∃ after, sink.writeFrames label payloads = (payloads.map fun _ => .ok (), after) ∧
        after.arrived = sink.arrived ++ payloads.flatMap encode ∧
        ∀ pieces, after.arrived = sink.arrived ++ pieces.flatten →
          readAll label pieces = (payloads, .cutOff label .length)) := by
  refine ⟨fun _ _ _ => readAll_eq_iff, message_ending label, ?_⟩
  intro sink payloads hsizes hroom hflushes
  rcases sink.writeFrames_of_room label hsizes hroom hflushes with ⟨after, hwrite, harrived⟩
  refine ⟨after, hwrite, harrived, ?_⟩
  intro pieces hpieces
  have hend : Unfinished [] := Or.inl (by decide)
  have hstream : pieces.flatten = payloads.flatMap encode ++ [] := by
    rw [List.append_nil]
    exact List.append_cancel_left (hpieces.symm.trans harrived)
  exact readAll_frames label hsizes hend hstream

theorem readAll_two_frames :
    ∃ after, Sink.writeFrames "Mock" ⟨fun _ => 3, 0, none, true, []⟩ [[], [0x7B, 0x7D]] =
        ([.ok (), .ok ()], after) ∧
      readAll "Mock" [[0, 0], [0], [0, 2, 0, 0, 0, 0x7B], [0x7D]] =
        ([[], [0x7B, 0x7D]], .cutOff "Mock" .length) := by
  rcases (readAll_inverts_writeFrames "Mock").right.right ⟨fun _ => 3, 0, none, true, []⟩
    [[], [0x7B, 0x7D]] (by decide) (by decide) rfl with ⟨after, hwrite, harrived, hread⟩
  exact ⟨after, hwrite, hread _ harrived⟩

end Frame

end Engine
end Cardsmith
