import Mathlib.Data.List.Forall2
import Cardsmith.Proofs.Engine.Handshake
import Cardsmith.Proofs.Engine.Messages

/-!
# Requests that are too long

Whoever sends a request registers for the reply first.  A request that is too long for a frame is
refused before anything of it is sent, but the registration stays in line.  The engine has heard
nothing of it, so its reply to the next request goes to that registration, and from then on
everyone waits for a reply that has gone to somebody else.
-/

namespace Cardsmith
namespace Engine

open Json

/-! ## Sizes -/

def Message.TooLong (message : Message) : Prop := 0x100000000 ≤ message.bytes.length

def Message.refusal (message : Message) : Fault :=
  .connection (.frame (.tooLarge message.bytes.length))

theorem escapeChar_ne_nil (c : Char) : escapeChar c ≠ [] := by
  unfold escapeChar
  split_ifs <;> exact List.cons_ne_nil _ _

theorem encodeChar_ne_nil (c : Char) : Utf8.encodeChar c ≠ [] := by
  unfold Utf8.encodeChar
  dsimp only
  split_ifs <;> exact List.cons_ne_nil _ _

theorem length_le_length_stringChars (s : String) :
    s.toList.length ≤ (Utf8.encodeChars (stringChars s)).length := by
  have hescaped := length_le_length_flatMap escapeChar_ne_nil s.toList
  have hencoded := length_le_length_flatMap encodeChar_ne_nil (stringChars s)
  have hquoted : (s.toList.flatMap escapeChar).length ≤ (stringChars s).length := by
    rw [stringChars, List.cons_append, List.length_cons, List.length_append]
    omega
  exact Nat.le_trans hescaped (Nat.le_trans hquoted hencoded)

theorem Message.length_method_le (target : Target) (method : String) (args : List Value) :
    method.toList.length ≤ (Message.invoke target method args).bytes.length := by
  have hfield : ("Method", Value.string method) ∈
      ("Type", Value.string Kind.invoke.name) :: (Message.invoke target method args).fields := by
    simp [Message.fields]
  have hprinted := (length_field_lt_object .compact 0 hfield).right
  rw [Value.print] at hprinted
  rw [Message.length_bytes]
  exact Nat.le_trans (length_le_length_stringChars method) (Nat.le_of_lt hprinted)

def longCall (letters : Nat) : Message :=
  .invoke ⟨"cards", "Card"⟩ (String.ofList (List.replicate letters 'a')) []

def shortCall : Message := .invoke ⟨"cards", "Card"⟩ "cost" []

theorem letters_le_length_longCall (letters : Nat) :
    letters ≤ (longCall letters).bytes.length := by
  have hname := Message.length_method_le ⟨"cards", "Card"⟩
    (String.ofList (List.replicate letters 'a')) []
  rw [String.toList_ofList, List.length_replicate] at hname
  exact hname

theorem tooLong_longCall : (longCall 0x100000000).TooLong :=
  letters_le_length_longCall 0x100000000

theorem not_tooLong_shortCall : ¬ shortCall.TooLong := by
  rw [Message.TooLong, Message.length_bytes]
  decide +kernel

/-! ## An engine that replies to every call -/

def obliging : Peer Nat := Script.peer ⟨[.frame Script.readyMessage.bytes], []⟩

theorem Reacts.of_frame {message : Message} (hsize : message.bytes.length ≤ Frame.maxSize)
    (hread : Message.ofBytes message.bytes = .ok message)
    (hasked : ∀ told, message ≠ .event told) :
    Reacts [.frame message.bytes] (.message message) := by
  have hanswers : Session.Answers [.frame message.bytes] [] message.bytes [] :=
    ⟨rfl, List.forall_mem_singleton.mpr hsize, List.forall_mem_nil _, List.forall_mem_nil _⟩
  exact .message hanswers hread hasked

namespace obliging

theorem react_fst (number : Nat) (request : Bytes) :
    (obliging.react number request).1 = Script.reply request := rfl

theorem greets : Reacts obliging.greet (.message Script.readyMessage) :=
  .of_frame (by decide +kernel) (Message.ofBytes_of_empty rfl) nofun

theorem imports {view : String} (hsize : (Message.imported view).bytes.length ≤ Frame.maxSize)
    (package : String) (number : Nat) :
    Reacts (obliging.react number (Message.importPackage view package).bytes).1
      (.message (.imported view)) := by
  have hasked := Message.ofBytes_of_empty (m := .importPackage view package) rfl
  have hreply : (obliging.react number (Message.importPackage view package).bytes).1 =
      [.frame (Message.imported view).bytes] := by
    rw [react_fst, Script.reply, hasked]
  rw [hreply]
  exact .of_frame hsize (Message.ofBytes_of_empty rfl) nofun

theorem returns (target : Target) (method : String) (number : Nat) :
    Reacts (obliging.react number (Message.invoke target method []).bytes).1
      (.message (.returnValue .null)) := by
  have hasked := Message.ofBytes_of_empty (m := .invoke target method []) rfl
  have hreply : (obliging.react number (Message.invoke target method []).bytes).1 =
      [.frame (Message.returnValue .null).bytes] := by
    rw [react_fst, Script.reply, hasked]
  rw [hreply]
  exact .of_frame (by decide +kernel) rfl nofun

theorem serves_views {views : List (String × String)}
    (hsizes : ∀ v ∈ views, (Message.imported v.1).bytes.length ≤ Frame.maxSize) (number : Nat)
    {later : List Stage} {reactions : List Reaction}
    (h : ∀ number, Serves obliging number later reactions) :
    Serves obliging number (Stage.ofViews views ++ later)
      ((views.map Prod.fst).map (fun view => .message (.imported view)) ++ reactions) := by
  induction views generalizing number with
  | nil => exact h number
  | cons v views ih =>
      exact .fits (imports (hsizes v List.mem_cons_self) v.2 number) rfl
        (ih (fun other hother => hsizes other (List.mem_cons_of_mem _ hother)) _)

def begun : Wait Unit × Session Nat :=
  (Session.start Transport.tcp.label (Link.start obliging 0)).begin

theorem begins : begun.1 = some (.ok ()) ∧ ∃ state, begun.2.Idle obliging state := by
  have hsizes : ∀ v ∈ Engine.views, (Message.imported v.1).bytes.length ≤ Frame.maxSize := by
    simp only [Message.length_bytes]
    decide +kernel
  have hserves : Serves obliging 0 Stage.handshake
      (Stage.welcome "Spellsource" "1.3.0" (Engine.views.map Prod.fst) .null) :=
    .fits greets rfl (serves_views hsizes 0 fun number =>
      .fits (returns _ _ number) rfl .done)
  rcases Session.begin_serves Transport.tcp.label hserves with
    ⟨_, _, _, _, next, _, _, hbegin, _, _, _, hidle⟩ | ⟨_, _, _, hdeviates, _, _⟩
  · rw [begun, hbegin]
    exact ⟨rfl, hidle⟩
  · exact absurd (Stage.forall₂_fits_welcome (List.length_map _)) hdeviates.not_fits

end obliging

/-! ## Who is in line -/

namespace Session

variable {π : Type} {peer : Peer π} {state : π} {waiting : List Nat} {message : Message}

/-- The session waits for nothing that is still to come, the engine at its other end is in the
state given, and these registrations are in line, all made before. -/
structure Queued (s : Session π) (peer : Peer π) (state : π) (waiting : List Nat) : Prop where
  expects : s.dispatcher.Expects waiting
  older : ∀ ticket ∈ waiting, ticket < s.ticket
  peer : s.link.peer = peer
  state : s.link.state = state
  read : s.link.inbound = []
  connected : s.link.hungUp = false
  usable : s.closed = false

theorem Idle.queued {s : Session π} (h : s.Idle peer state) : s.Queued peer state [] :=
  ⟨h.expects, List.forall_mem_nil _, h.peer, h.state, h.read, h.connected, h.usable⟩

theorem Queued.enlist {s : Session π} (h : s.Queued peer state waiting) :
    s.enlist.Queued peer state (waiting ++ [s.ticket]) := by
  refine ⟨h.expects.join s.ticket, ?_, h.peer, h.state, h.read, h.connected, h.usable⟩
  intro ticket hmem
  rcases List.mem_append.mp hmem with hearlier | hnow
  · exact Nat.lt_succ_of_lt (h.older ticket hearlier)
  · rw [List.mem_singleton.mp hnow]
    exact Nat.lt_succ_self s.ticket

/-! ## One request -/

theorem request_tooLong {s : Session π} (hopen : s.closed = false)
    (hrunning : s.dispatcher.running = true)
    (hroom : s.dispatcher.door.length < s.dispatcher.capacity) (hlong : message.TooLong) :
    s.request message = (some (.error message.refusal), s.enlist) := by
  have hsend : s.link.send s.label message.bytes = .error (.tooLarge message.bytes.length) :=
    if_pos hlong
  rw [request_of_room hopen hrunning hroom, hsend, Message.refusal]

theorem Queued.request_full {s : Session π} (h : s.Queued peer state waiting)
    (hfull : ¬ s.dispatcher.door.length < s.dispatcher.capacity) (message : Message) :
    s.request message = (none, s) := by
  rw [request, if_neg (by simp [h.usable]), Dispatcher.register?_eq,
    if_neg fun hboth => hfull hboth.right]
  simp only [h.expects.running, if_true]

theorem Queued.request_sent {s : Session π} {reaction : Reaction}
    (h : s.Queued peer state waiting)
    (hroom : s.dispatcher.door.length < s.dispatcher.capacity) (hshort : ¬ message.TooLong)
    (hreacts : Reacts (peer.react state message.bytes).1 reaction)
    (hstays : reaction ≠ .closed) :
    ∃ next, s.request message =
        ((((waiting ++ [s.ticket]).take 1).map fun who => (who, reaction.reply)).lookup s.ticket,
          next) ∧
      next.received = s.received ++ [message.bytes] ∧
      next.Queued peer (peer.react state message.bytes).2 ((waiting ++ [s.ticket]).drop 1) := by
  have henlisted := h.enlist
  obtain ⟨hexpects, _, rfl, rfl, hread, hconnected, husable⟩ := h
  rcases @await_reply _ (s.sending message) (handed s.link message.bytes) _ _ _
      henlisted.expects hreacts hstays rfl hread hconnected s.ticket with
    ⟨next, hawait, hkept, hnext, hlink⟩
  refine ⟨next, ?_, ?_, hnext, ?_, by rw [hlink]; rfl, by rw [hlink]; rfl,
    by rw [hlink]; exact hread, by rw [hlink]; exact hconnected, hkept.closed.trans husable⟩
  · rw [request_sends husable hexpects.running hroom hconnected (Nat.lt_of_not_le hshort)]
    exact hawait
  · rw [received, hlink]
    exact List.reverse_cons
  · intro ticket hmem
    rw [hkept.ticket]
    exact henlisted.older ticket (List.mem_of_mem_drop hmem)

/-! ## Many requests -/

def requestAll (s : Session π) (messages : List Message) : List (Wait Message) × Session π :=
  replay (fun message s => s.request message) s messages

end Session

def Peer.RepliesTo {π : Type} (peer : Peer π) (message : Message) : Prop :=
  ∀ state, ∃ reaction, Reacts (peer.react state message.bytes).1 reaction ∧ reaction ≠ .closed

/-- What a request comes to that gets no reply: a wait without end, unless it is not sent. -/
inductive Unanswered (message : Message) : Wait Message → Prop where
  | waits : Unanswered message none
  | refused (long : message.TooLong) : Unanswered message (some (.error message.refusal))

namespace Session

variable {π : Type} {peer : Peer π} {state : π} {waiting : List Nat} {message : Message}

/-- With a registration in line that nobody replies to, a request gets no reply, and then there is
such a registration in line too. -/
theorem Queued.request_unanswered {s : Session π} (h : s.Queued peer state waiting)
    (hbehind : waiting ≠ []) (hreplies : ¬ message.TooLong → peer.RepliesTo message) :
    Unanswered message (s.request message).1 ∧
      ∃ after still, still ≠ [] ∧ (s.request message).2.Queued peer after still := by
  by_cases hroom : s.dispatcher.door.length < s.dispatcher.capacity
  · by_cases hlong : message.TooLong
    · rw [request_tooLong h.usable h.expects.running hroom hlong]
      exact ⟨.refused hlong, state, _, List.append_ne_nil_of_left_ne_nil hbehind _, h.enlist⟩
    · rcases hreplies hlong state with ⟨reaction, hreacts, hstays⟩
      rcases h.request_sent hroom hlong hreacts hstays with ⟨next, hrequest, _, hnext⟩
      rw [hrequest]
      obtain ⟨first, rest, rfl⟩ := List.exists_cons_of_ne_nil hbehind
      have hother : (s.ticket == first) = false :=
        beq_false_of_ne (Nat.ne_of_gt (h.older first List.mem_cons_self))
      refine ⟨?_, _, _, List.append_ne_nil_of_right_ne_nil rest (List.cons_ne_nil _ _), hnext⟩
      simp only [List.cons_append, List.take_succ_cons, List.take_zero, List.map_cons,
        List.map_nil, List.lookup_cons, hother, List.lookup_nil]
      exact .waits
  · rw [h.request_full hroom]
    exact ⟨.waits, state, waiting, hbehind, h⟩

theorem Queued.requestAll_unanswered {s : Session π} {messages : List Message}
    (h : s.Queued peer state waiting) (hbehind : waiting ≠ [])
    (hreplies : ∀ message ∈ messages, ¬ message.TooLong → peer.RepliesTo message) :
    List.Forall₂ Unanswered messages (s.requestAll messages).1 := by
  induction messages generalizing s state waiting with
  | nil => exact .nil
  | cons message rest ih =>
      rcases h.request_unanswered hbehind (hreplies message List.mem_cons_self) with
        ⟨houtcome, after, still, hstill, hnext⟩
      exact .cons houtcome
        (ih hnext hstill fun other hother => hreplies other (List.mem_cons_of_mem _ hother))

theorem Idle.waiting_after_tooLong {s : Session π} (hidle : s.Idle peer state)
    (hlong : message.TooLong) :
    (s.request message).2.dispatcher.pending ++ (s.request message).2.dispatcher.door =
      [s.ticket] := by
  rw [request_tooLong hidle.usable hidle.expects.running hidle.expects.room hlong]
  exact hidle.queued.enlist.expects.waiting

theorem Idle.request_after_tooLong {s : Session π} (hidle : s.Idle peer state)
    (hlong : message.TooLong) {request : Message} {reaction : Reaction}
    (hshort : ¬ request.TooLong) (hreacts : Reacts (peer.react state request.bytes).1 reaction)
    (hstays : reaction ≠ .closed) :
    (s.request request).1 = some reaction.reply ∧
      ((s.request message).2.request request).1 = none ∧
      ((s.request message).2.request request).2.received = s.received ++ [request.bytes] := by
  have henlisted := hidle.queued.enlist
  have hspace : s.enlist.dispatcher.door.length < s.enlist.dispatcher.capacity := by
    have hdoor : s.dispatcher.door = [] := (List.append_eq_nil_iff.mp hidle.expects.waiting).right
    have hone : s.enlist.dispatcher.door.length = 1 := by
      rw [enlist, hdoor]
      rfl
    rw [hone, henlisted.expects.capacity]
    decide
  have hrefused := request_tooLong hidle.usable hidle.expects.running hidle.expects.room hlong
  rcases request_reaction hidle (Nat.lt_of_not_le hshort) hreacts with ⟨_, hanswered, _⟩
  rcases henlisted.request_sent hspace hshort hreacts hstays with ⟨_, hwaits, hreceived, _⟩
  have hother : (s.enlist.ticket == s.ticket) = false :=
    beq_false_of_ne (Nat.succ_ne_self s.ticket)
  rw [hanswered, hrefused, hwaits]
  refine ⟨rfl, ?_, hreceived⟩
  rw [List.nil_append, List.cons_append, List.take_succ_cons, List.map_cons, List.lookup_cons,
    hother]
  rfl

/-- A request that is too long changes nothing on the connection, but its registration stays in
line.  So in a session that waited for nothing, a request that would have had its reply waits for
it without end, though the engine gets it just the same; and however many registrations were in
line, no later request ever gets a reply from an engine that replies to all of them. -/
theorem too_long_request_takes_a_reply {s : Session π} (hopen : s.closed = false)
    (hrunning : s.dispatcher.running = true)
    (hroom : s.dispatcher.door.length < s.dispatcher.capacity) (hlong : message.TooLong) :
    s.request message = (some (.error message.refusal), { s with
        dispatcher := { s.dispatcher with door := s.dispatcher.door ++ [s.ticket] }
        ticket := s.ticket + 1 }) ∧
      (∀ peer state, s.Idle peer state → ∀ request reaction, ¬ request.TooLong →
        Reacts (peer.react state request.bytes).1 reaction → reaction ≠ .closed →
          (s.request request).1 = some reaction.reply ∧
          ((s.request message).2.request request).1 = none ∧
          ((s.request message).2.request request).2.received = s.received ++ [request.bytes]) ∧
      ∀ peer state waiting, s.Queued peer state waiting → ∀ later : List Message,
        (∀ request ∈ later, ¬ request.TooLong → peer.RepliesTo request) →
          List.Forall₂ Unanswered later ((s.request message).2.requestAll later).1 := by
  have hrefused := request_tooLong hopen hrunning hroom hlong
  refine ⟨hrefused, ?_, ?_⟩
  · intro peer state hidle request reaction hshort hreacts hstays
    exact hidle.request_after_tooLong hlong hshort hreacts hstays
  · intro peer state waiting hqueued later hreplies
    rw [hrefused]
    exact hqueued.enlist.requestAll_unanswered
      (List.append_ne_nil_of_right_ne_nil waiting (List.cons_ne_nil _ _)) hreplies

theorem long_call_takes_replies :
    let s := obliging.begun.2
    let refused := (s.request (longCall 0x100000000)).2
    s.closed = false ∧ s.dispatcher.running = true ∧
      s.dispatcher.door.length < s.dispatcher.capacity ∧ (longCall 0x100000000).TooLong ∧
      (s.request (longCall 0x100000000)).1 = some (.error (longCall 0x100000000).refusal) ∧
      List.Forall₂ Unanswered [shortCall, shortCall]
        (refused.requestAll [shortCall, shortCall]).1 := by
  rcases obliging.begins with ⟨-, state, hidle⟩
  rcases too_long_request_takes_a_reply hidle.usable hidle.expects.running hidle.expects.room
    tooLong_longCall with ⟨hrefused, -, hlater⟩
  refine ⟨hidle.usable, hidle.expects.running, hidle.expects.room, tooLong_longCall,
    congrArg Prod.fst hrefused, hlater obliging state [] hidle.queued _ ?_⟩
  have hreplies : obliging.RepliesTo shortCall :=
    fun number => ⟨_, obliging.returns _ _ number, nofun⟩
  exact List.forall_mem_cons.mpr
    ⟨fun _ => hreplies, List.forall_mem_singleton.mpr fun _ => hreplies⟩

/-- After a call whose name is too long, the reply to the next one goes astray. -/
theorem reply_after_long_call_goes_astray :
    let s := obliging.begun.2
    let refused := (s.request (longCall 0x100000000)).2
    obliging.begun.1 = some (.ok ()) ∧
      refused.dispatcher.pending ++ refused.dispatcher.door = [s.ticket] ∧
      (s.request shortCall).1 = some (.ok (.returnValue .null)) ∧
      (refused.request shortCall).1 = none ∧
      (refused.request shortCall).2.received = s.received ++ [shortCall.bytes] := by
  rcases obliging.begins with ⟨hbegun, state, hidle⟩
  exact ⟨hbegun, hidle.waiting_after_tooLong tooLong_longCall,
    hidle.request_after_tooLong tooLong_longCall not_tooLong_shortCall
      (obliging.returns _ _ state) nofun⟩

end Session

end Engine
end Cardsmith
