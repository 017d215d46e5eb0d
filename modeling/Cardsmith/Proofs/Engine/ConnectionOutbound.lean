import Cardsmith.Proofs.Engine.ConnectionStatus

/-!
# What the engine gets

Whatever the engine does and whenever the connection fails, the frames that are whole in what a
client has written are its calls, in order and without repetition, and then the request to end.
Once closing has returned, nothing is written any more.
-/

namespace Cardsmith
namespace Engine

open Json

/-! ## Calls and what they came to -/

def Move.isClosing : Move → Bool
  | .closing => true
  | _ => false

def Move.call? : Move → Option Call
  | .called call => some call
  | _ => none

def Move.return? : Move → Option (Call × Except Fault Value)
  | .returned call outcome => some (call, outcome)
  | _ => none

/-- What was done before the client first began to close. -/
def early (trace : List Move) : List Move := trace.takeWhile fun move => !move.isClosing

def callsIn (trace : List Move) : List Call := trace.filterMap Move.call?

def returnsIn (trace : List Move) : List (Call × Except Fault Value) :=
  trace.filterMap Move.return?

theorem early_append_of_not_mem {before : List Move} (h : .closing ∉ before)
    (after : List Move) : early (before ++ after) = before ++ early after := by
  apply List.takeWhile_append_of_pos
  intro move hmove
  cases move with
  | closing => exact absurd hmove h
  | _ => rfl

theorem early_append_of_mem {before : List Move} (h : .closing ∈ before) (after : List Move) :
    early (before ++ after) = early before := by
  induction before with
  | nil => cases h
  | cons move rest ih =>
      unfold early at ih ⊢
      rw [List.cons_append, List.takeWhile_cons, List.takeWhile_cons]
      split_ifs with hopen
      · rcases List.mem_cons.mp h with hclosing | hrest
        · rw [← hclosing] at hopen
          cases hopen
        · rw [ih hrest]
      · rfl

def told (trace : List Move) : List Call × List (Call × Except Fault Value) :=
  (callsIn (early trace), returnsIn (early trace))

theorem told_of_mem {trace : List Move} (h : .closing ∈ trace) (move : Move) :
    told (trace ++ [move]) = told trace := by
  unfold told
  rw [early_append_of_mem h]

theorem told_concat {trace : List Move} (h : .closing ∉ trace) (move : Move) :
    told (trace ++ [move]) =
      ((told trace).1 ++ callsIn (early [move]), (told trace).2 ++ returnsIn (early [move])) := by
  have htrace : early trace = trace := by
    have hall := early_append_of_not_mem h []
    rw [List.append_nil] at hall
    exact hall.trans (List.append_nil trace)
  unfold told callsIn returnsIn
  rw [early_append_of_not_mem h, htrace, List.filterMap_append, List.filterMap_append]

theorem told_of_silent {move : Move} (hcall : move.call? = none) (hreturn : move.return? = none)
    (trace : List Move) : told (trace ++ [move]) = told trace := by
  by_cases h : .closing ∈ trace
  · exact told_of_mem h move
  · have hcalls : callsIn (early [move]) = [] := by
      cases move <;> first | rfl | cases hcall
    have hreturns : returnsIn (early [move]) = [] := by
      cases move <;> first | rfl | cases hreturn
    rw [told_concat h, hcalls, hreturns, List.append_nil, List.append_nil]

/-! ## The books -/

/-- A call that was made, what it came to if it has returned, and whether the engine has got the
whole frame of it. -/
structure Entry where
  call : Call
  outcome? : Option (Except Fault Value)
  whole : Bool

def Entry.return? (entry : Entry) : Option (Call × Except Fault Value) :=
  entry.outcome?.map fun outcome => (entry.call, outcome)

/-- The call has returned, and not without an error if the engine has not got it. -/
def Entry.Settled (entry : Entry) : Prop :=
  ∃ outcome, entry.outcome? = some outcome ∧
    (entry.whole = false → ∃ fault, outcome = .error fault)

/-- The requests that the engine has got: calls, and perhaps the one to end. -/
def requests (entries : List Entry) (parted : Bool) : List Bytes :=
  (entries.filter Entry.whole).map (fun entry => entry.call.message.bytes) ++
    if parted then [Message.shutdown.bytes] else []

theorem requests_parted (entries : List Entry) (parted : Bool) :
    requests entries parted =
      requests entries false ++ if parted then [Message.shutdown.bytes] else [] := by
  unfold requests
  cases parted with
  | false => simp
  | true => simp

theorem requests_concat (entries : List Entry) (call : Call)
    (outcome? : Option (Except Fault Value)) (whole : Bool) :
    requests (entries ++ [⟨call, outcome?, whole⟩]) false =
      requests entries false ++ if whole then [call.message.bytes] else [] := by
  unfold requests
  cases whole with
  | false => simp
  | true => simp

/-- The last of the calls has not returned, and the engine has got it or not. -/
def Pending (call : Call) (whole : Bool) (entries : List Entry) : Prop :=
  ∃ earlier, (∀ entry ∈ earlier, entry.Settled) ∧ entries = earlier ++ [⟨call, none, whole⟩]

/-- How the calls stand while the client does what is given and has not begun to close. -/
def Caller.Keeps (entries : List Entry) : Caller → Prop
  | .free => ∀ entry ∈ entries, entry.Settled
  | .calling call => Pending call false entries
  | .writing (.request _ call) left => Pending call left.isEmpty entries
  | .waiting _ call => Pending call true entries
  | .failing call _ => ∃ whole, Pending call whole entries
  | .writing .farewell _ | .leaving | .gone => False

/-- How the request to end stands while the client does what is given and has begun to close. -/
def Caller.Parts (parted : Bool) : Caller → Prop
  | .writing .farewell left => parted = left.isEmpty
  | .free | .calling _ | .leaving | .gone => True
  | .writing (.request _ _) _ | .waiting _ _ | .failing _ _ => False

/-- So much of a frame has been written by a client that does what is given. -/
inductive Underway : Caller → Bytes → Prop where
  | untouched (errand : Errand) : Underway (.writing errand (Frame.encode errand.payload)) []
  | partway {errand : Errand} {done left : Bytes} :
      done ++ left = Frame.encode errand.payload → left ≠ [] →
      errand.payload.length < 0x100000000 → Underway (.writing errand left) done
  | whole (errand : Errand) : Underway (.writing errand []) []
  | nothing {caller : Caller} : (∀ errand left, caller ≠ .writing errand left) → Underway caller []

theorem Underway.eq_nil {caller : Caller} {done : Bytes} (h : Underway caller done)
    (hidle : ∀ errand left, left ≠ [] → caller ≠ .writing errand left) : done = [] := by
  cases h with
  | untouched => rfl
  | partway _ hleft _ => exact absurd rfl (hidle _ _ hleft)
  | whole => rfl
  | nothing => rfl

theorem Underway.append_eq {errand : Errand} {done left : Bytes}
    (h : Underway (.writing errand left) done) (hleft : left ≠ []) :
    done ++ left = Frame.encode errand.payload := by
  generalize hcaller : Caller.writing errand left = caller at h
  cases h with
  | untouched errand' =>
      cases hcaller
      rfl
  | partway hdone _ _ =>
      cases hcaller
      exact hdone
  | whole errand' =>
      cases hcaller
      exact absurd rfl hleft
  | nothing hidle => exact absurd hcaller.symm (hidle errand left)

theorem Underway.eq_nil_of_oversize {errand : Errand} {done left : Bytes}
    (h : Underway (.writing errand left) done) (hlarge : 0x100000000 ≤ errand.payload.length) :
    done = [] := by
  cases h with
  | untouched => rfl
  | partway _ _ hsmall => exact absurd hsmall (Nat.not_lt.mpr hlarge)
  | whole => rfl
  | nothing => rfl

def Caller.unsent? : Caller → Option Call
  | .calling call | .writing (.request _ call) _ | .failing call _ => some call
  | .free | .writing .farewell _ | .waiting _ _ | .leaving | .gone => none

namespace Connection

variable {label : String} {b c d : Connection} {move : Move} {trace : List Move}

/-! ## What has been written -/

/-- What has been written are these frames, and a part of another one that is written now or will
never be whole. -/
structure Written (frames : List Bytes) (c : Connection) (done : Bytes) : Prop where
  outbound : c.outbound = frames.flatMap Frame.encode ++ done
  sizes : ∀ payload ∈ frames, payload.length < 0x100000000
  cut : Frame.Cut done
  underway : c.outlet = .intact → Underway c.caller done

theorem cut_nil : Frame.Cut [] := Or.inl (by decide)

theorem Written.turn {frames : List Bytes} {done : Bytes} (h : Written frames c done)
    (houtbound : d.outbound = c.outbound) (hunderway : d.outlet = .intact → Underway d.caller done) :
    Written frames d done :=
  ⟨houtbound.trans h.outbound, h.sizes, h.cut, hunderway⟩

theorem Written.put {frames : List Bytes} {done piece left : Bytes} {errand : Errand}
    (h : Written frames c done) (hcaller : c.caller = .writing errand (piece ++ left))
    (hpiece : piece ≠ []) (hintact : c.outlet = .intact)
    (hsmall : errand.payload.length < 0x100000000) :
    ∃ next, Written (frames ++ if left.isEmpty then [errand.payload] else [])
      { c with caller := .writing errand left, outbound := c.outbound ++ piece } next := by
  have hunderway := h.underway hintact
  rw [hcaller] at hunderway
  have hmore : piece ++ left ≠ [] := by
    intro hnil
    exact hpiece (List.append_eq_nil_iff.mp hnil).left
  have hwhole := hunderway.append_eq hmore
  rw [← List.append_assoc] at hwhole
  cases left with
  | nil =>
      rw [List.append_nil] at hwhole
      refine ⟨[], ?_, ?_, cut_nil, fun _ => .whole errand⟩
      · show c.outbound ++ piece = (frames ++ [errand.payload]).flatMap Frame.encode ++ []
        rw [h.outbound, List.append_assoc, hwhole, List.append_nil, List.flatMap_append,
          List.flatMap_singleton]
      · intro payload hpayload
        rcases List.mem_append.mp hpayload with hold | hnew
        · exact h.sizes payload hold
        · rw [List.mem_singleton.mp hnew]
          exact hsmall
  | cons byte rest =>
      have hleft : byte :: rest ≠ [] := List.cons_ne_nil byte rest
      refine ⟨done ++ piece, ?_, ?_, Frame.cut_of_append_eq_encode hsmall hwhole hleft,
        fun _ => .partway hwhole hleft hsmall⟩
      · show c.outbound ++ piece = (frames ++ []).flatMap Frame.encode ++ (done ++ piece)
        rw [h.outbound, List.append_nil, List.append_assoc]
      · intro payload hpayload
        rcases List.mem_append.mp hpayload with hold | hnew
        · exact h.sizes payload hold
        · cases hnew

theorem Written.rest {frames : List Bytes} {done : Bytes} (h : Written frames c done)
    (hidle : ∀ errand left, left ≠ [] → c.caller ≠ .writing errand left)
    (houtbound : d.outbound = c.outbound) (houtlet : d.outlet = .intact → c.outlet = .intact)
    (hunderway : Underway d.caller []) : Written frames d done := by
  apply h.turn houtbound
  intro hintact
  rw [(h.underway (houtlet hintact)).eq_nil hidle]
  exact hunderway

theorem not_writing_of_eq {caller : Caller} (hcaller : c.caller = caller)
    (hnot : ∀ errand left, left ≠ [] → caller ≠ .writing errand left) :
    ∀ errand left, left ≠ [] → c.caller ≠ .writing errand left := by
  rw [hcaller]
  exact hnot

theorem Written.idle {frames : List Bytes} {done : Bytes} {caller next : Caller}
    (h : Written frames c done) (hcaller : c.caller = caller)
    (hidle : ∀ errand left, caller ≠ .writing errand left)
    (hnext : ∀ errand left, next ≠ .writing errand left) :
    Written frames { c with caller := next } done :=
  h.rest (not_writing_of_eq hcaller fun errand left _ => hidle errand left) rfl id (.nothing hnext)

/-! ## How calls stand -/

structure Accounts (trace : List Move) (c : Connection) (entries : List Entry) (parted : Bool) :
    Prop where
  before : c.closed = false → parted = false ∧ c.caller.Keeps entries
  after : c.closed = true → (∀ entry ∈ entries, entry.Settled) ∧ c.caller.Parts parted
  written : ∃ done, Written (requests entries parted) c done
  told : told trace = (entries.map Entry.call, entries.filterMap Entry.return?)
  closing : c.closed = true ↔ .closing ∈ trace

variable {entries : List Entry} {parted : Bool}

theorem mem_concat_closing (hmove : move ≠ .closing) :
    .closing ∈ trace ++ [move] ↔ .closing ∈ trace := by
  rw [List.mem_append, List.mem_singleton]
  constructor
  · rintro (hmem | hclosing)
    · exact hmem
    · exact absurd hclosing.symm hmove
  · exact Or.inl

theorem Accounts.goOn (next : List Entry) (h : Accounts trace c entries parted)
    (hopen : c.closed = false) (hclosed : d.closed = c.closed) (hmove : move ≠ .closing)
    (hkeeps : d.caller.Keeps next) (hwritten : ∃ done, Written (requests next false) d done)
    (htold : Engine.told (trace ++ [move]) = (next.map Entry.call, next.filterMap Entry.return?)) :
    ∃ entries parted, Accounts (trace ++ [move]) d entries parted := by
  refine ⟨next, false, fun _ => ⟨rfl, hkeeps⟩, ?_, hwritten, htold, ?_⟩
  · intro hc
    rw [hclosed, hopen] at hc
    cases hc
  · rw [mem_concat_closing hmove, ← h.closing, hclosed]

theorem Accounts.endOn (next : Bool) (h : Accounts trace c entries parted)
    (hclosed : c.closed = true) (hstill : d.closed = c.closed) (hmove : move ≠ .closing)
    (hparts : d.caller.Parts next) (hwritten : ∃ done, Written (requests entries next) d done) :
    ∃ entries parted, Accounts (trace ++ [move]) d entries parted := by
  refine ⟨entries, next, ?_, fun _ => ⟨(h.after hclosed).left, hparts⟩, hwritten, ?_, ?_⟩
  · intro hc
    rw [hstill, hclosed] at hc
    cases hc
  · rw [told_of_mem (h.closing.mp hclosed), h.told]
  · rw [mem_concat_closing hmove, ← h.closing, hstill]

theorem Accounts.return {call : Call} {whole : Bool} {outcome : Except Fault Value}
    {caller : Caller} (h : Accounts trace c entries parted) (hopen : c.closed = false)
    (hpending : Pending call whole entries) (hcaller : c.caller = caller)
    (hidle : ∀ errand left, caller ≠ .writing errand left)
    (houtcome : whole = false → ∃ fault, outcome = .error fault) :
    ∃ entries parted, Accounts (trace ++ [.returned call outcome]) { c with caller := .free }
      entries parted := by
  obtain ⟨earlier, hsettled, rfl⟩ := hpending
  obtain ⟨rfl, _⟩ := h.before hopen
  obtain ⟨done, hwritten⟩ := h.written
  have hnever : .closing ∉ trace := by
    rw [← h.closing, hopen]
    exact Bool.noConfusion
  refine h.goOn (earlier ++ [⟨call, some outcome, whole⟩]) hopen rfl Move.noConfusion ?_ ?_ ?_
  · intro entry hentry
    rcases List.mem_append.mp hentry with hold | hnew
    · exact hsettled entry hold
    · rw [List.mem_singleton.mp hnew]
      exact ⟨outcome, rfl, houtcome⟩
  · rw [requests_concat, ← requests_concat earlier call none]
    exact ⟨done, hwritten.idle hcaller hidle fun _ _ => Caller.noConfusion⟩
  · have hreturned : callsIn (early [.returned call outcome]) = [] ∧
        returnsIn (early [.returned call outcome]) = [(call, outcome)] := ⟨rfl, rfl⟩
    rw [told_concat hnever, h.told, hreturned.left, hreturned.right]
    simp [Entry.return?]

theorem Accounts.of_writing {errand : Errand} {left : Bytes} (h : Accounts trace c entries parted)
    (hwriting : c.caller = .writing errand left) :
    (c.closed = false ∧ parted = false ∧
        ∃ ticket call, errand = .request ticket call ∧ Pending call left.isEmpty entries) ∨
      (c.closed = true ∧ errand = .farewell ∧ parted = left.isEmpty) := by
  cases hclosed : c.closed with
  | false =>
      obtain ⟨hparted, hkeeps⟩ := h.before hclosed
      rw [hwriting] at hkeeps
      cases errand with
      | request ticket call => exact Or.inl ⟨rfl, hparted, ticket, call, rfl, hkeeps⟩
      | farewell => exact hkeeps.elim
  | true =>
      obtain ⟨_, hparts⟩ := h.after hclosed
      rw [hwriting] at hparts
      cases errand with
      | request ticket call => exact hparts.elim
      | farewell => exact Or.inr ⟨rfl, rfl, hparts⟩

theorem Accounts.put {errand : Errand} {piece left : Bytes} (h : Accounts trace c entries parted)
    (hwriting : c.caller = .writing errand (piece ++ left)) (hpiece : piece ≠ [])
    (hintact : c.outlet = .intact) (hsmall : errand.payload.length < 0x100000000) :
    ∃ entries parted, Accounts (trace ++ [.put piece])
      { c with caller := .writing errand left, outbound := c.outbound ++ piece }
      entries parted := by
  have hsome : (piece ++ left).isEmpty = false := by
    rw [List.isEmpty_eq_false_iff]
    intro hnil
    exact hpiece (List.append_eq_nil_iff.mp hnil).left
  obtain ⟨done, hwritten⟩ := h.written
  have hput := hwritten.put hwriting hpiece hintact hsmall
  rcases h.of_writing hwriting with
    ⟨hopen, rfl, ticket, call, rfl, earlier, hsettled, hentries⟩ | ⟨hclosed, rfl, hparted⟩
  · rw [hsome] at hentries
    rw [hentries, requests_concat, if_neg Bool.false_ne_true, List.append_nil] at hput
    refine h.goOn (earlier ++ [⟨call, none, left.isEmpty⟩]) hopen rfl Move.noConfusion
      ⟨earlier, hsettled, rfl⟩ ?_ ?_
    · rw [requests_concat]
      exact hput
    · rw [told_of_silent rfl rfl, h.told, hentries, List.map_append, List.map_append,
        List.filterMap_append, List.filterMap_append]
      rfl
  · rw [hparted, hsome] at hput
    refine h.endOn left.isEmpty hclosed rfl Move.noConfusion rfl ?_
    rw [requests_parted]
    exact hput

theorem Accounts.write {errand : Errand} (h : Accounts trace c entries parted)
    (hwriting : c.caller = .writing errand []) :
    ∃ entries parted, Accounts (trace ++ [.wrote errand.message])
      { c with caller := errand.written } entries parted := by
  obtain ⟨done, hwritten⟩ := h.written
  have hidle : ∀ other left, left ≠ [] → c.caller ≠ .writing other left := by
    apply not_writing_of_eq hwriting
    intro other left hleft hsame
    cases hsame
    exact hleft rfl
  rcases h.of_writing hwriting with ⟨hopen, rfl, ticket, call, rfl, hpending⟩ | ⟨hclosed, rfl, _⟩
  · refine h.goOn entries hopen rfl Move.noConfusion hpending ⟨done, ?_⟩
      ((told_of_silent rfl rfl trace).trans h.told)
    exact hwritten.rest hidle rfl id (.nothing fun _ _ => Caller.noConfusion)
  · refine h.endOn parted hclosed rfl Move.noConfusion trivial ⟨done, ?_⟩
    exact hwritten.rest hidle rfl id (.nothing fun _ _ => Caller.noConfusion)

theorem Accounts.unwritten {errand : Errand} {left : Bytes} {fault : ConnectionFault}
    {outlet : Outlet} (h : Accounts trace c entries parted)
    (hwriting : c.caller = .writing errand left)
    (hunwritten : outlet = .intact →
      c.outlet = .intact ∧ 0x100000000 ≤ errand.payload.length) :
    ∃ entries parted, Accounts (trace ++ [.unwritten fault])
      { c with caller := errand.unwritten fault, outlet := outlet } entries parted := by
  obtain ⟨done, hwritten⟩ := h.written
  have hnext (next : Caller) (hnext : ∀ other left, next ≠ .writing other left) :
      Written (requests entries parted) { c with caller := next, outlet := outlet } done := by
    refine hwritten.turn rfl ?_
    intro hintact
    obtain ⟨hstill, hlarge⟩ := hunwritten hintact
    have hunderway := hwritten.underway hstill
    rw [hwriting] at hunderway
    rw [hunderway.eq_nil_of_oversize hlarge]
    exact .nothing hnext
  rcases h.of_writing hwriting with ⟨hopen, rfl, ticket, call, rfl, hpending⟩ | ⟨hclosed, rfl, _⟩
  · exact h.goOn entries hopen rfl Move.noConfusion ⟨_, hpending⟩
      ⟨done, hnext _ fun _ _ => Caller.noConfusion⟩
      ((told_of_silent rfl rfl trace).trans h.told)
  · exact h.endOn parted hclosed rfl Move.noConfusion trivial
      ⟨done, hnext _ fun _ _ => Caller.noConfusion⟩

theorem Accounts.call {call : Call} (h : Accounts trace c entries parted)
    (hfree : c.caller = .free) :
    ∃ entries parted, Accounts (trace ++ [.called call]) { c with caller := .calling call }
      entries parted := by
  obtain ⟨done, hwritten⟩ := h.written
  have hcalling : Written (requests entries parted) { c with caller := .calling call } done :=
    hwritten.idle hfree (fun _ _ => Caller.noConfusion) fun _ _ => Caller.noConfusion
  by_cases hclosed : c.closed = true
  · exact h.endOn parted hclosed rfl Move.noConfusion trivial ⟨done, hcalling⟩
  · have hopen : c.closed = false := Bool.eq_false_iff.mpr hclosed
    have hnever : .closing ∉ trace := fun hmem => hclosed (h.closing.mpr hmem)
    obtain ⟨rfl, hkeeps⟩ := h.before hopen
    rw [hfree] at hkeeps
    refine h.goOn (entries ++ [⟨call, none, false⟩]) hopen rfl Move.noConfusion
      ⟨entries, hkeeps, rfl⟩ ?_ ?_
    · rw [requests_concat, if_neg Bool.false_ne_true, List.append_nil]
      exact ⟨done, hcalling⟩
    · have hcalled : callsIn (early [.called call]) = [call] ∧
          returnsIn (early [.called call]) = [] := ⟨rfl, rfl⟩
      rw [told_concat hnever, h.told, hcalled.left, hcalled.right]
      simp [Entry.return?]

theorem Accounts.register {call : Call} {ticket next : Nat} {dispatcher : Dispatcher Nat}
    (h : Accounts trace c entries parted) (hcalling : c.caller = .calling call)
    (hopen : c.closed = false) :
    ∃ entries parted, Accounts (trace ++ [.registered ticket])
      { c with
        caller := .writing (.request ticket call) (Frame.encode call.message.bytes)
        dispatcher := dispatcher
        ticket := next } entries parted := by
  obtain ⟨rfl, hkeeps⟩ := h.before hopen
  obtain ⟨done, hwritten⟩ := h.written
  rw [hcalling] at hkeeps
  refine h.goOn entries hopen rfl Move.noConfusion hkeeps ⟨done, ?_⟩
    ((told_of_silent rfl rfl trace).trans h.told)
  exact hwritten.rest (not_writing_of_eq hcalling fun _ _ _ => Caller.noConfusion) rfl id
    (.untouched (.request _ _))

theorem Accounts.closed_of_not_keeps (h : Accounts trace c entries parted)
    (hnot : ¬ c.caller.Keeps entries) : c.closed = true := by
  by_contra hclosed
  exact hnot (h.before (Bool.eq_false_iff.mpr hclosed)).right

theorem Accounts.open_of_not_parts (h : Accounts trace c entries parted)
    (hnot : ¬ c.caller.Parts parted) : c.closed = false := by
  rw [Bool.eq_false_iff]
  intro hclosed
  exact hnot (h.after hclosed).right

theorem Accounts.wait {ticket : Nat} {call : Call} {outcome : Except Fault Value}
    (h : Accounts trace c entries parted) (hwaiting : c.caller = .waiting ticket call) :
    ∃ entries parted, Accounts (trace ++ [.returned call outcome]) { c with caller := .free }
      entries parted := by
  have hopen := h.open_of_not_parts (by rw [hwaiting]; exact id)
  have hkeeps := (h.before hopen).right
  rw [hwaiting] at hkeeps
  exact h.return hopen hkeeps hwaiting (fun _ _ => Caller.noConfusion) Bool.noConfusion

theorem Accounts.client {label : String} (h : Accounts trace c entries parted)
    (hstep : ClientStep label c move d) :
    ∃ entries parted, Accounts (trace ++ [move]) d entries parted := by
  obtain ⟨done, hwritten⟩ := h.written
  cases hstep with
  | call call hfree => exact h.call hfree
  | refuse hcalling hclosed =>
      refine h.endOn parted hclosed rfl Move.noConfusion trivial ⟨done, ?_⟩
      exact hwritten.idle hcalling (fun _ _ => Caller.noConfusion) fun _ _ => Caller.noConfusion
  | register hcalling hopen _ _ => exact h.register hcalling hopen
  | registerLate hcalling hopen _ => exact h.register hcalling hopen
  | turnAway hcalling hopen _ =>
      have hkeeps := (h.before hopen).right
      rw [hcalling] at hkeeps
      exact h.return hopen hkeeps hcalling (fun _ _ => Caller.noConfusion) fun _ => ⟨_, rfl⟩
  | put hwriting hpiece hintact hsmall => exact h.put hwriting hpiece hintact hsmall
  | write hwriting _ => exact h.write hwriting
  | breakOff part? reason hwriting _ _ => exact h.unwritten hwriting Outlet.noConfusion
  | oversize hwriting _ hlarge => exact h.unwritten hwriting fun hintact => ⟨hintact, hlarge⟩
  | disconnect hwriting hreleased =>
      exact h.unwritten hwriting fun hintact => nomatch hreleased.symm.trans hintact
  | fail hfailing =>
      have hopen := h.open_of_not_parts (by rw [hfailing]; exact id)
      have hkeeps := (h.before hopen).right
      rw [hfailing] at hkeeps
      obtain ⟨whole, hpending⟩ := hkeeps
      exact h.return hopen hpending hfailing (fun _ _ => Caller.noConfusion) fun _ => ⟨_, rfl⟩
  | resume hwaiting _ => exact h.wait hwaiting
  | forsake hwaiting _ _ => exact h.wait hwaiting
  | close hfree hopen =>
      obtain ⟨rfl, hkeeps⟩ := h.before hopen
      rw [hfree] at hkeeps
      refine ⟨entries, false, Bool.noConfusion, fun _ => ⟨hkeeps, rfl⟩, ⟨done, ?_⟩,
        (told_of_silent rfl rfl trace).trans h.told, ?_⟩
      · exact hwritten.rest (not_writing_of_eq hfree fun _ _ _ => Caller.noConfusion) rfl id
          (.untouched .farewell)
      · exact ⟨fun _ => List.mem_append_right _ (List.mem_singleton_self _), fun _ => rfl⟩
  | release hleaving =>
      have hclosed := h.closed_of_not_keeps (by rw [hleaving]; exact id)
      refine h.endOn parted hclosed rfl Move.noConfusion trivial ⟨done, ?_⟩
      exact hwritten.turn rfl Outlet.noConfusion
  | finish outcome hgone =>
      have hclosed := h.closed_of_not_keeps (by rw [hgone]; exact id)
      refine h.endOn parted hclosed rfl Move.noConfusion trivial ⟨done, ?_⟩
      exact hwritten.idle hgone (fun _ _ => Caller.noConfusion) fun _ _ => Caller.noConfusion
  | closeAgain hfree hclosed =>
      refine h.endOn parted hclosed rfl Move.noConfusion ?_ ⟨done, hwritten⟩
      rw [hfree]
      trivial

theorem Accounts.others {label : String} (h : Accounts trace c entries parted)
    (hstep : EarStep label c move d ∨ EngineStep c move d) :
    ∃ entries parted, Accounts (trace ++ [move]) d entries parted := by
  have hsilent : move.call? = none ∧ move.return? = none ∧ move ≠ .closing := by
    rcases hstep with hear | hengine
    · cases hear <;> exact ⟨rfl, rfl, Move.noConfusion⟩
    · cases hengine <;> exact ⟨rfl, rfl, Move.noConfusion⟩
  have hsame : d.caller = c.caller ∧ d.closed = c.closed ∧ d.outlet = c.outlet ∧
      d.outbound = c.outbound := by
    rcases hstep with hear | hengine
    · cases hear <;> exact ⟨rfl, rfl, rfl, rfl⟩
    · cases hengine <;> exact ⟨rfl, rfl, rfl, rfl⟩
  obtain ⟨hcall, hreturn, hmove⟩ := hsilent
  obtain ⟨hcaller, hclosed, houtlet, houtbound⟩ := hsame
  obtain ⟨done, hwritten⟩ := h.written
  refine ⟨entries, parted, ?_, ?_, ⟨done, ?_⟩, ?_, ?_⟩
  · rw [hclosed, hcaller]
    exact h.before
  · rw [hclosed, hcaller]
    exact h.after
  · apply hwritten.turn houtbound
    rw [houtlet, hcaller]
    exact hwritten.underway
  · rw [told_of_silent hcall hreturn, h.told]
  · rw [hclosed, mem_concat_closing hmove, h.closing]

theorem Accounts.step {label : String} (h : Accounts trace c entries parted)
    (hstep : Step label c move d) :
    ∃ entries parted, Accounts (trace ++ [move]) d entries parted := by
  cases hstep with
  | client hstep => exact h.client hstep
  | ear hstep => exact h.others (Or.inl hstep)
  | engine hstep => exact h.others (Or.inr hstep : EarStep label c move d ∨ _)

/-- However a run from a client that has connected goes, its calls stand as they should. -/
theorem Connected.accounts {label : String} (hc : c.Connected) (h : Steps label c trace d) :
    ∃ entries parted, Accounts trace d entries parted := by
  induction h with
  | stay =>
      refine ⟨[], false, fun _ => ⟨rfl, ?_⟩, ?_, ⟨[], ?_⟩, rfl, ?_⟩
      · rw [hc.free]
        exact fun _ hentry => absurd hentry List.not_mem_nil
      · intro hclosed
        cases hc.usable.symm.trans hclosed
      · refine ⟨hc.unwritten, fun _ hpayload => absurd hpayload List.not_mem_nil, cut_nil, ?_⟩
        intro _
        rw [hc.free]
        exact .nothing fun _ _ => Caller.noConfusion
      · rw [hc.usable]
        simp
  | step _ hstep ih =>
      obtain ⟨entries, parted, haccounts⟩ := ih
      exact haccounts.step hstep

/-! ## After closing -/

theorem Accounts.refusing {label : String} {outcome : Except Fault Unit}
    (h : Accounts trace c entries parted) (hstep : Step label c (.closed outcome) d) :
    d.Refusing .closed := by
  have hrefusal (hclosed : d.closed = true) : d.status.refusal? = some .closed := by
    rw [status_eq_closed_iff.mpr hclosed]
    rfl
  cases hstep with
  | ear hstep => cases hstep
  | engine hstep => cases hstep
  | client hstep =>
      cases hstep with
      | finish _ hgone =>
          have hclosed : c.closed = true := h.closed_of_not_keeps (by rw [hgone]; exact id)
          exact ⟨hrefusal hclosed, Or.inl rfl⟩
      | closeAgain hfree hclosed => exact ⟨hrefusal hclosed, Or.inl hfree⟩

theorem Refusing.closed (h : c.Refusing .closed) : c.closed = true := by
  rcases h.reason with ⟨hclosed, _⟩ | ⟨_, _, hfault⟩
  · exact hclosed
  · cases hfault

/-! ## What the engine has got -/

theorem settled_or_of_pending {call : Call} {whole : Bool} (h : Pending call whole entries) :
    (∀ entry ∈ entries.dropLast, entry.Settled) ∧
      ∀ entry ∈ entries, entry.Settled ∨ entry = ⟨call, none, whole⟩ := by
  obtain ⟨earlier, hsettled, rfl⟩ := h
  constructor
  · rw [List.dropLast_concat]
    exact hsettled
  · intro entry hentry
    rcases List.mem_append.mp hentry with hold | hnew
    · exact Or.inl (hsettled entry hold)
    · exact Or.inr (List.mem_singleton.mp hnew)

theorem Accounts.settled_or (h : Accounts trace c entries parted) :
    (∀ entry ∈ entries.dropLast, entry.Settled) ∧
      ∀ entry ∈ entries, entry.Settled ∨
        entry.outcome? = none ∧ (entry.whole = false → c.caller.unsent? = some entry.call) := by
  have hall (hsettled : ∀ entry ∈ entries, entry.Settled) :
      (∀ entry ∈ entries.dropLast, entry.Settled) ∧
        ∀ entry ∈ entries, entry.Settled ∨
          entry.outcome? = none ∧ (entry.whole = false → c.caller.unsent? = some entry.call) :=
    ⟨fun entry hentry => hsettled entry (List.dropLast_subset _ hentry),
      fun entry hentry => Or.inl (hsettled entry hentry)⟩
  have hlast {call : Call} {whole : Bool} (hpending : Pending call whole entries)
      (hunsent : whole = false → c.caller.unsent? = some call) :
      (∀ entry ∈ entries.dropLast, entry.Settled) ∧
        ∀ entry ∈ entries, entry.Settled ∨
          entry.outcome? = none ∧ (entry.whole = false → c.caller.unsent? = some entry.call) := by
    obtain ⟨hsettled, heach⟩ := settled_or_of_pending hpending
    refine ⟨hsettled, fun entry hentry => ?_⟩
    rcases heach entry hentry with hold | rfl
    · exact Or.inl hold
    · exact Or.inr ⟨rfl, hunsent⟩
  by_cases hclosed : c.closed = true
  · exact hall (h.after hclosed).left
  · have hkeeps := (h.before (Bool.eq_false_iff.mpr hclosed)).right
    cases hcaller : c.caller with
    | free =>
        rw [hcaller] at hkeeps
        exact hcaller ▸ hall hkeeps
    | calling call =>
        rw [hcaller] at hkeeps
        exact hcaller ▸ hlast hkeeps fun _ => by rw [hcaller]; rfl
    | writing errand left =>
        rw [hcaller] at hkeeps
        cases errand with
        | farewell => exact hkeeps.elim
        | request ticket call => exact hcaller ▸ hlast hkeeps fun _ => by rw [hcaller]; rfl
    | waiting ticket call =>
        rw [hcaller] at hkeeps
        exact hcaller ▸ hlast hkeeps Bool.noConfusion
    | failing call fault =>
        rw [hcaller] at hkeeps
        obtain ⟨whole, hpending⟩ := hkeeps
        exact hcaller ▸ hlast hpending fun _ => by rw [hcaller]; rfl
    | leaving =>
        rw [hcaller] at hkeeps
        exact hkeeps.elim
    | gone =>
        rw [hcaller] at hkeeps
        exact hkeeps.elim

/-- The frames that are whole in what a client has written are calls that it made before it first
began to close, in their order and each at most once, and then perhaps the request to end.  A call
is missing only if it returned with an error or is not written yet. -/
structure Delivered (trace : List Move) (c : Connection) (entries : List Entry) (parted : Bool) :
    Prop where
  calls : entries.map Entry.call = callsIn (early trace)
  returns : entries.filterMap Entry.return? = returnsIn (early trace)
  returned : ∀ entry ∈ entries.dropLast, entry.outcome? ≠ none
  missing : ∀ entry ∈ entries, entry.whole = false →
    (∃ fault, entry.outcome? = some (.error fault)) ∨
      entry.outcome? = none ∧ c.caller.unsent? = some entry.call
  parting : parted = true → .closing ∈ trace
  frames : Frame.Carries c.outbound (requests entries parted)

theorem Accounts.delivered (h : Accounts trace c entries parted) :
    Delivered trace c entries parted := by
  obtain ⟨hsettled, heach⟩ := h.settled_or
  obtain ⟨done, hwritten⟩ := h.written
  have htold := h.told
  refine ⟨(congrArg Prod.fst htold).symm, (congrArg Prod.snd htold).symm, ?_, ?_, ?_,
    ⟨done, hwritten.outbound, hwritten.sizes, hwritten.cut⟩⟩
  · intro entry hentry hnone
    obtain ⟨outcome, houtcome, _⟩ := hsettled entry hentry
    cases houtcome.symm.trans hnone
  · intro entry hentry hmissing
    rcases heach entry hentry with ⟨outcome, houtcome, hfault⟩ | ⟨hnone, hunsent⟩
    · obtain ⟨fault, rfl⟩ := hfault hmissing
      exact Or.inl ⟨fault, houtcome⟩
    · exact Or.inr ⟨hnone, hunsent hmissing⟩
  · intro hparted
    apply h.closing.mp
    by_contra hopen
    have hunparted := (h.before (Bool.eq_false_iff.mpr hopen)).left
    cases hparted.symm.trans hunparted

/-- Whatever the engine does and whenever the connection fails, the engine gets the calls of a client
in order, then perhaps the request to end, and after closing has returned nothing more: every call
is refused then and closing again comes to nothing, without a registration.  Whatever a sink takes
of a frame is written so by a client.  A session that has begun stands where such a client stands, and
its calls and its closing are those of the client. -/
theorem engine_gets_calls_then_farewell {label : String} (hc : c.Connected)
    (h : Steps label c trace d) :
    (∃ entries parted, Delivered trace d entries parted) ∧
      (∀ before outcome after, trace = before ++ .closed outcome :: after →
        (∀ move ∈ after, move.Quiet .closed) ∧
          (∃ e, Steps label c (before ++ [.closed outcome]) e ∧ d.outbound = e.outbound ∧
            d.ticket = e.ticket) ∧
          (d.caller = .free →
            (∀ call, Steps label d [.called call, .returned call (.error .closed)] d) ∧
              Steps label d [.closed (.ok ())] d) ∧
          (∀ call, d.caller = .calling call →
            Steps label d [.returned call (.error .closed)] { d with caller := .free })) ∧
      (∀ (sink : Sink) errand, d.caller = .writing errand (Frame.encode errand.payload) →
        d.outlet = .intact →
          ∃ piece more e, Steps label d more e ∧
            (sink.writeFrame label errand.payload).2.arrived = sink.arrived ++ piece ∧
            e.outbound = d.outbound ++ piece ∧
            e.caller = errand.after (sink.writeFrame label errand.payload).1) ∧
      (∀ (π : Type) (link : Link π) next,
        (Session.start label link).begin = (some (.ok ()), next) →
          next.connection.Connected ∧ next.Stands next.received .free next.connection) ∧
      ∀ (π : Type) (s : Session π) base, s.label = label → s.Stands base .free d →
        (∃ entries parted, Delivered trace d entries parted ∧
          s.received = base ++ requests entries parted) ∧
          (∀ call, ∃ more e, Steps label d (.called call :: more) e ∧
            match s.invoke call.target call.method call.args with
            | (some outcome, next) =>
                .returned call outcome ∈ more ∧ next.Stands base .free e ∧ next.label = label
            | (none, _) => e.caller ≠ .free) ∧
          ∃ more e, Steps label d (more ++ [.closed (.ok ())]) e ∧ s.close.Stands base .free e ∧
            s.close.label = label := by
  obtain ⟨entries, parted, haccounts⟩ := hc.accounts h
  refine ⟨⟨entries, parted, haccounts.delivered⟩, ?_, ?_, ?_, ?_⟩
  · intro before outcome after htrace
    rw [htrace, ← List.singleton_append, ← List.append_assoc] at h
    obtain ⟨e, hbefore, hafter⟩ := h.split
    obtain ⟨b, hfirst, hlast⟩ := hbefore.last
    obtain ⟨_, _, hearlier⟩ := hc.accounts hfirst
    have hrefusing := hearlier.refusing hlast
    have hopen := hafter.closing_not_mem hrefusing.closed
    obtain ⟨hstill, hquiet, houtbound, hticket⟩ := hrefusing.steps hafter hopen
    refine ⟨hquiet, ⟨e, hbefore, houtbound, hticket⟩, ?_, ?_⟩
    · intro hfree
      exact ⟨hstill.answers hfree, (Step.client (.closeAgain hfree hstill.closed)).steps⟩
    · intro call hcalling
      exact (hstill.turns hcalling).steps
  · intro sink errand hwriting hintact
    exact writeFrame_connection sink hwriting hintact
  · intro π link next hbegin
    exact Session.begun_connection hbegin
  · rintro π s base rfl hstands
    refine ⟨⟨entries, parted, haccounts.delivered, ?_⟩, ?_, ?_⟩
    · obtain ⟨sent, hreceived, hsent, hsizes⟩ := hstands.outbound
      have hcarries : Frame.Carries d.outbound sent :=
        ⟨[], by rw [List.append_nil, hsent], hsizes, cut_nil⟩
      rw [hreceived, hcarries.unique haccounts.delivered.frames]
    · intro call
      exact Session.invoke_connection hstands call
    · exact Session.close_connection hstands

def answered : Connection :=
  { opened with
    ticket := 1
    answers := [(0, .ok (.returnValue .null))]
    outbound := Frame.encode question.message.bytes }

/-- The next call broke off after a byte, and the client has closed. -/
def brokenOff : Connection :=
  { answered with
    dispatcher := { answered.dispatcher with door := [1] }
    ticket := 2
    outlet := .released
    outbound := Frame.encode question.message.bytes ++ [93]
    closed := true }

theorem broken_off_call_is_missing :
    ∃ trace, opened.Connected ∧ Steps "Mock" opened trace brokenOff ∧
      callsIn (early trace) = [question, question] ∧
      ∃ entries parted, Delivered trace brokenOff entries parted := by
  have hsmall : question.message.bytes.length < 0x100000000 := by decide
  have hpiece : Frame.encode question.message.bytes ≠ [] := List.cons_ne_nil _ _
  have hanswered : Steps "Mock" opened _ answered :=
    (Steps.stay opened)
      |>.step (.client (.call question rfl))
      |>.step (.client (.register rfl rfl id rfl))
      |>.step (.client (@ClientStep.put _ _ (.request 0 question) _ []
        (congrArg _ (List.append_nil _).symm) hpiece rfl hsmall))
      |>.step (.client (.write rfl rfl))
      |>.step (.engine (.send (Frame.encode (Message.returnValue .null).bytes) rfl))
      |>.step (.ear (.fetch rfl rfl))
      |>.step (.ear (.collect rfl))
      |>.step (.ear (.dispatch rfl rfl))
      |>.step (.client (.resume rfl rfl))
  have hbroken : Steps "Mock" opened _ brokenOff :=
    hanswered
      |>.step (.client (.call question rfl))
      |>.step (.client (.register rfl rfl id rfl))
      |>.step (.client (@ClientStep.put _ _ (.request 1 question) [93]
        (Frame.encode question.message.bytes).tail rfl (List.cons_ne_nil _ _) rfl hsmall))
      |>.step (.client (@ClientStep.breakOff _ _ (.request 1 question) _ (some .length) .brokenPipe
        rfl Outlet.noConfusion hsmall))
      |>.step (.client (.fail rfl))
      |>.step (.client (.close rfl rfl))
      |>.step (.client (@ClientStep.breakOff _ _ .farewell _ (some .length) .brokenPipe rfl
        Outlet.noConfusion (by decide)))
      |>.step (.client (.release rfl))
      |>.step (.client (.finish (.ok ()) rfl))
  exact ⟨_, opened_connected, hbroken, rfl,
    (engine_gets_calls_then_farewell opened_connected hbroken).left⟩

end Connection
end Engine
end Cardsmith
