import Cardsmith.Proofs.Engine.Connection

/-!
# What the ear hears

The frames that the engine sends are read and passed on one after another, whatever is in them.
The ear stops where no frame will ever be read, or when the client lets go of the connection.
-/

namespace Cardsmith
namespace Engine

/-! ## What was heard -/

def Ear.held : Ear → List Bytes
  | .holding payload | .ready payload => [payload]
  | .idle | .failing | .leaving | .ended => []

def Move.bytes : Move → Bytes
  | .sent bytes => bytes
  | _ => []

def Move.fetched? : Move → Option Bytes
  | .fetched payload => some payload
  | _ => none

def Move.dispatched? : Move → Option Bytes
  | .dispatched payload _ => some payload
  | _ => none

def sentIn (trace : List Move) : Bytes := trace.flatMap Move.bytes

def fetchedIn (trace : List Move) : List Bytes := trace.filterMap Move.fetched?

def dispatchedIn (trace : List Move) : List Bytes := trace.filterMap Move.dispatched?

namespace Connection

variable {label : String} {b c d : Connection} {move : Move} {trace : List Move}

/-! ## Steps and the ear -/

/-- The ear does not notice what the client does, unless the client lets go of the connection. -/
structure Unnoticed (c : Connection) (move : Move) (d : Connection) : Prop where
  ear : d.ear = c.ear
  inbound : d.inbound = c.inbound
  hungUp : d.hungUp = c.hungUp
  released : c.outlet = .released → d.outlet = .released
  bytes : move.bytes = []
  fetched : move.fetched? = none
  dispatched : move.dispatched? = none

theorem ClientStep.unnoticed (h : ClientStep label c move d) : Unnoticed c move d := by
  cases h with
  | breakOff _ _ _ hunreleased _ =>
      exact ⟨rfl, rfl, rfl, fun hreleased => absurd hreleased hunreleased, rfl, rfl, rfl⟩
  | release _ => exact ⟨rfl, rfl, rfl, fun _ => rfl, rfl, rfl, rfl⟩
  | _ => exact ⟨rfl, rfl, rfl, id, rfl, rfl, rfl⟩

/-- Everything that the engine has sent was read and passed on in order, but for one frame that is
read and for what has not been read. -/
structure Heard (b : Connection) (trace : List Move) (d : Connection) : Prop where
  stream : b.inbound ++ sentIn trace = (fetchedIn trace).flatMap Frame.encode ++ d.inbound
  sizes : ∀ payload ∈ fetchedIn trace, payload.length ≤ Frame.maxSize
  passedOn : b.ear.held ++ fetchedIn trace = dispatchedIn trace ++ d.ear.held

/-- The ear stopped before the run, or in the run where no frame could be read any more. -/
structure Ran (label : String) (b : Connection) (trace : List Move) (d : Connection) : Prop where
  reason : b.ear.Over ∨ .failed (Frame.ending label d.inbound) ∈ trace
  lost : Frame.Lost d.hungUp d.inbound

theorem read_inbound {payload : Bytes} {left : List Bytes}
    (h : Frame.read label [c.inbound] = .ok (payload, left)) :
    c.inbound = Frame.encode payload ++ left.flatten ∧ payload.length ≤ Frame.maxSize := by
  have hflat : [c.inbound].flatten = c.inbound := List.flatten_singleton
  rcases Frame.unfinished_or_encode c.inbound with hunfinished | ⟨found, rest, hstream, hsize⟩
  · have hfails := (@Frame.read_eq_error_iff label _ _).mpr ⟨hunfinished, rfl⟩
    cases hfails.symm.trans h
  · rcases Frame.read_encode_append label (hflat.trans hstream) hsize with ⟨later, hread, hrest⟩
    cases hread.symm.trans h
    exact ⟨hrest.symm ▸ hstream, hsize⟩

theorem Heard.goOn (h : Heard b trace c) (hinbound : d.inbound = c.inbound ++ move.bytes)
    (hheld : d.ear.held = c.ear.held) (hfetched : move.fetched? = none)
    (hdispatched : move.dispatched? = none) : Heard b (trace ++ [move]) d := by
  have hnothing : fetchedIn (trace ++ [move]) = fetchedIn trace := by
    simp [fetchedIn, hfetched]
  have hneither : dispatchedIn (trace ++ [move]) = dispatchedIn trace := by
    simp [dispatchedIn, hdispatched]
  refine ⟨?_, ?_, ?_⟩
  · have hsent : sentIn (trace ++ [move]) = sentIn trace ++ move.bytes := by
      simp [sentIn]
    rw [hnothing, hsent, hinbound, ← List.append_assoc, ← List.append_assoc, h.stream]
  · rw [hnothing]
    exact h.sizes
  · rw [hnothing, hneither, hheld]
    exact h.passedOn

theorem Heard.fetch {payload rest : Bytes} (h : Heard b trace c)
    (hinbound : c.inbound = Frame.encode payload ++ rest) (hsize : payload.length ≤ Frame.maxSize)
    (hheld : c.ear.held = []) (hrest : d.inbound = rest) (hholds : d.ear.held = [payload]) :
    Heard b (trace ++ [.fetched payload]) d := by
  have hfetched : fetchedIn (trace ++ [.fetched payload]) = fetchedIn trace ++ [payload] := by
    simp [fetchedIn, Move.fetched?]
  refine ⟨?_, ?_, ?_⟩
  · have hsent : sentIn (trace ++ [.fetched payload]) = sentIn trace := by
      simp [sentIn, Move.bytes]
    rw [hsent, h.stream, hfetched, hinbound, hrest, List.flatMap_append, List.flatMap_singleton,
      List.append_assoc]
  · intro frame hframe
    rw [hfetched] at hframe
    rcases List.mem_append.mp hframe with hold | hnew
    · exact h.sizes frame hold
    · rw [List.mem_singleton.mp hnew]
      exact hsize
  · have hdispatched : dispatchedIn (trace ++ [.fetched payload]) = dispatchedIn trace := by
      simp [dispatchedIn, Move.dispatched?]
    rw [hfetched, hdispatched, hholds, ← List.append_assoc, h.passedOn, hheld, List.append_nil]

theorem Heard.dispatch {payload : Bytes} {notices : List (Notice Nat)} (h : Heard b trace c)
    (hheld : c.ear.held = [payload]) (hinbound : d.inbound = c.inbound) (hholds : d.ear.held = []) :
    Heard b (trace ++ [.dispatched payload notices]) d := by
  have hfetched : fetchedIn (trace ++ [.dispatched payload notices]) = fetchedIn trace := by
    simp [fetchedIn, Move.fetched?]
  refine ⟨?_, ?_, ?_⟩
  · have hsent : sentIn (trace ++ [.dispatched payload notices]) = sentIn trace := by
      simp [sentIn, Move.bytes]
    rw [hsent, hfetched, hinbound]
    exact h.stream
  · rw [hfetched]
    exact h.sizes
  · have hdispatched : dispatchedIn (trace ++ [.dispatched payload notices]) =
        dispatchedIn trace ++ [payload] := by
      simp [dispatchedIn, Move.dispatched?]
    rw [hfetched, hdispatched, hholds, List.append_nil, h.passedOn, hheld]

theorem Heard.step (h : Heard b trace c) (hstep : Step label c move d) :
    Heard b (trace ++ [move]) d := by
  cases hstep with
  | client hstep =>
      have hunnoticed := hstep.unnoticed
      apply h.goOn _ _ hunnoticed.fetched hunnoticed.dispatched
      · rw [hunnoticed.bytes, List.append_nil, hunnoticed.inbound]
      · rw [hunnoticed.ear]
  | engine hstep =>
      cases hstep with
      | send bytes _ => exact h.goOn rfl rfl rfl rfl
      | hangUp => exact h.goOn (List.append_nil _).symm rfl rfl rfl
  | ear hstep =>
      cases hstep with
      | fetch hidle hread =>
          obtain ⟨hinbound, hsize⟩ := read_inbound hread
          exact h.fetch hinbound hsize (by rw [hidle]; rfl) rfl rfl
      | dispatch hready _ => exact h.dispatch (by rw [hready]; rfl) rfl rfl
      | collect hear | fail hear _ _ | lose hear _ | leave hear | stop hear _ =>
          exact h.goOn (List.append_nil _).symm (by rw [hear]; rfl) rfl rfl

theorem Steps.heard (h : Steps label b trace d) : Heard b trace d := by
  induction h with
  | stay =>
      refine ⟨List.append_nil _, fun _ hpayload => absurd hpayload List.not_mem_nil, ?_⟩
      exact List.append_nil _
  | step _ hstep ih => exact ih.step hstep

/-! ## Where the ear stops -/

theorem Ran.later (h : Ran label b trace c) (hinbound : d.inbound = c.inbound)
    (hhungUp : d.hungUp = c.hungUp) : Ran label b (trace ++ [move]) d := by
  obtain ⟨hreason, hlost⟩ := h
  refine ⟨?_, ?_⟩
  · rw [hinbound]
    exact hreason.imp_right (List.mem_append_left _)
  · rw [hinbound, hhungUp]
    exact hlost

theorem Ran.step (h : c.ear.Over → c.outlet ≠ .released → Ran label b trace c)
    (hstep : Step label c move d) (hover : d.ear.Over) (hunreleased : d.outlet ≠ .released) :
    Ran label b (trace ++ [move]) d := by
  cases hstep with
  | client hstep =>
      have hunnoticed := hstep.unnoticed
      have hsame : Ran label b trace c :=
        h (hunnoticed.ear ▸ hover) (fun hreleased => hunreleased (hunnoticed.released hreleased))
      exact hsame.later hunnoticed.inbound hunnoticed.hungUp
  | engine hstep =>
      have hsame := h (by cases hstep <;> exact hover) (by cases hstep <;> exact hunreleased)
      obtain ⟨hreason, hlost⟩ := hsame
      cases hstep with
      | hangUp => exact ⟨hreason.imp_right (List.mem_append_left _), hlost.hungUp⟩
      | send bytes hstanding =>
          rw [hstanding] at hlost
          obtain ⟨hstill, hending⟩ := hlost.append label c.hungUp bytes
          refine ⟨?_, hstill⟩
          show _ ∨ Move.failed (Frame.ending label (c.inbound ++ bytes)) ∈ _
          rw [hending]
          exact hreason.imp_right (List.mem_append_left _)
  | ear hstep =>
      cases hstep with
      | fetch _ _ => exact hover.elim
      | collect _ => exact hover.elim
      | dispatch _ _ => exact hover.elim
      | fail _ hread hsettled =>
          obtain ⟨rfl, hlost⟩ := Frame.read_settled_iff.mp ⟨hread, hsettled⟩
          exact ⟨Or.inr (List.mem_append_right _ (List.mem_singleton_self _)), hlost⟩
      | lose hfailing _ => exact (h (by rw [hfailing]; trivial) hunreleased).later rfl rfl
      | leave hleaving => exact (h (by rw [hleaving]; trivial) hunreleased).later rfl rfl
      | stop _ hreleased => exact absurd hreleased hunreleased

theorem Steps.ran (h : Steps label b trace d) (hb : b.ear.Over → Frame.Lost b.hungUp b.inbound)
    (hover : d.ear.Over) (hunreleased : d.outlet ≠ .released) : Ran label b trace d := by
  induction h with
  | stay => exact ⟨Or.inl hover, hb hover⟩
  | step _ hstep ih => exact Ran.step ih hstep hover hunreleased

/-! ## What the ear comes to -/

/-- A frame is read and passed on, whatever is in it, and the ear waits for the next one. -/
theorem hears {payload rest : Bytes} (hidle : c.ear = .idle)
    (hinbound : c.inbound = Frame.encode payload ++ rest)
    (hsize : payload.length ≤ Frame.maxSize) :
    ∃ notices d, Steps label c [.fetched payload, .collected, .dispatched payload notices] d ∧
      d.ear = .idle ∧ d.inbound = rest ∧ d.closed = c.closed := by
  have hflat : [c.inbound].flatten = Frame.encode payload ++ rest := by
    rw [List.flatten_singleton, hinbound]
  rcases Frame.read_encode_append label hflat hsize with ⟨left, hread, hleft⟩
  have hsteps : Steps label c _ _ :=
    (Steps.stay c)
      |>.step (.ear (.fetch hidle hread))
      |>.step (.ear (.collect rfl))
      |>.step (.ear (@EarStep.dispatch _ _ _ (c.dispatcher.letIn.dispatch payload).1
        (c.dispatcher.letIn.dispatch payload).2 rfl rfl))
  exact ⟨_, _, hsteps, rfl, hleft, rfl⟩

theorem falls_silent (hidle : c.ear = .idle) (hlost : Frame.Lost c.hungUp c.inbound) :
    ∃ notices d,
      Steps label c [.failed (Frame.ending label c.inbound), .lost notices, .ended] d ∧
        d.ear = .ended ∧ d.closed = c.closed := by
  obtain ⟨hread, hsettled⟩ := Frame.read_settled_iff.mpr ⟨rfl, hlost⟩
  have hsteps : Steps label c _ _ :=
    (Steps.stay c)
      |>.step (.ear (.fail hidle hread hsettled))
      |>.step (.ear (@EarStep.lose _ _ c.dispatcher.lose.1 c.dispatcher.lose.2 rfl rfl))
      |>.step (.ear (.leave rfl))
  exact ⟨_, _, hsteps, rfl, rfl⟩

end Connection
end Engine
end Cardsmith
