import Mathlib.Data.List.Forall2
import Cardsmith.Proofs.Engine.Listening

/-!
# Handshakes

What the beginning of a session comes to, whatever the engine does.  A session waits for the
engine, asks for every view and has the cards loaded; at each of these stages the engine says one
thing, or hangs up.  A session begins exactly if what the engine does fits every stage.  If it does
not, the fault is the one of the first stage that it does not fit, and nothing is asked after that.
-/

namespace Cardsmith
namespace Engine

/-! ## What the engine does -/

/-- What an engine does at a stage, beside telling of events: it says something, sends a frame
that holds no message, or hangs up. -/
inductive Reaction where
  | message (said : Message)
  | garbled (fault : Json.Fault)
  | closed
  deriving DecidableEq

def Reaction.reply : Reaction → Reply
  | .message said => .ok said
  | .garbled fault => .error (.malformed fault)
  | .closed => .error (.connection .lost)

/-- The engine reacts in this way, and tells of any events before and after that. -/
inductive Reacts (acts : List Act) : Reaction → Prop where
  | message {before after : List Bytes} {payload : Bytes} {said : Message}
      (answers : Session.Answers acts before payload after)
      (holds : Message.ofBytes payload = .ok said) (asked : ∀ told, said ≠ .event told) :
      Reacts acts (.message said)
  | garbled {before after : List Bytes} {payload : Bytes} {fault : Json.Fault}
      (answers : Session.Answers acts before payload after)
      (holds : Message.ofBytes payload = .error fault) : Reacts acts (.garbled fault)
  | closed {before : List Bytes} {rest : List Act}
      (hangsUp : acts = before.map Act.frame ++ .hangUp :: rest)
      (sizes : ∀ p ∈ before, p.length ≤ Frame.maxSize)
      (events : ∀ p ∈ before, ∃ told, Content.ofFrame p = .event told) : Reacts acts .closed

theorem Reacts.exists_reply {acts : List Act} {reaction : Reaction} (h : Reacts acts reaction)
    (hstays : reaction ≠ .closed) :
    ∃ before payload after, Session.Answers acts before payload after ∧
      Content.ofFrame payload = .reply reaction.reply := by
  cases h with
  | @message before after payload said hanswers hholds hasked =>
      refine ⟨before, payload, after, hanswers, ?_⟩
      rw [Content.ofFrame, hholds]
      cases said with
      | event told => exact absurd rfl (hasked told)
      | _ => rfl
  | @garbled before after payload fault hanswers hholds =>
      refine ⟨before, payload, after, hanswers, ?_⟩
      rw [Content.ofFrame, hholds]
      rfl
  | closed => exact absurd rfl hstays

/-! ## Stages -/

/-- What a session waits for when it begins: an engine that is ready, a view, and the cards. -/
inductive Stage where
  | greeting
  | view (name package : String)
  | cards
  deriving DecidableEq

namespace Stage

def request? : Stage → Option Message
  | .greeting => none
  | .view name package => some (.importPackage name package)
  | .cards => some (.invoke ⟨"cards", "CardCatalogue"⟩ "loadCardsFromPackage" [])

def complaint? : Stage → Message → Option Fault
  | .greeting, .ready _ _ => none
  | .greeting, other => some (.protocol (.notReady other))
  | .view _ _, .imported _ => none
  | .view _ _, .error code text => some (.remote code text)
  | .view _ _, other => some (.protocol (.notImported other))
  | .cards, .returnValue _ => none
  | .cards, .error code text => some (.remote code text)
  | .cards, other => some (.protocol (.notReturned ⟨"cards", "CardCatalogue"⟩
      "loadCardsFromPackage" other))

def deviation? (stage : Stage) : Reaction → Option Fault
  | .message said => stage.complaint? said
  | .garbled fault => some (.malformed fault)
  | .closed => some (.connection .lost)

def Fits (stage : Stage) (reaction : Reaction) : Prop := stage.deviation? reaction = none

def acts {π : Type} (stage : Stage) (peer : Peer π) (state : π) : List Act × π :=
  match stage.request? with
  | none => (peer.greet, state)
  | some message => peer.react state message.bytes

def requests (stages : List Stage) : List Bytes :=
  (stages.filterMap request?).map Message.bytes

theorem requests_append (first second : List Stage) :
    requests (first ++ second) = requests first ++ requests second := by
  rw [requests, List.filterMap_append, List.map_append]
  rfl

def ofViews (views : List (String × String)) : List Stage :=
  views.map fun (name, package) => .view name package

def handshake : List Stage := .greeting :: (ofViews Engine.views ++ [.cards])

def welcome (name version : String) (named : List String) (value : Json.Value) : List Reaction :=
  .message (.ready name version) ::
    (named.map (fun view => .message (.imported view)) ++ [.message (.returnValue value)])

theorem forall₂_fits_imported {views : List (String × String)} {named : List String}
    (hlength : named.length = views.length) :
    List.Forall₂ Fits (ofViews views) (named.map fun view => .message (.imported view)) := by
  refine List.forall₂_map_left_iff.mpr (List.forall₂_map_right_iff.mpr ?_)
  exact List.forall₂_iff_get.mpr ⟨hlength.symm, fun _ _ _ => rfl⟩

theorem forall₂_fits_welcome {name version : String} {named : List String} {value : Json.Value}
    (hlength : named.length = Engine.views.length) :
    List.Forall₂ Fits handshake (welcome name version named value) :=
  .cons rfl (List.rel_append (forall₂_fits_imported hlength) (.cons rfl .nil))

end Stage

/-- What an engine does at the stages given, up to the first one that it does not fit. -/
inductive Serves {π : Type} (peer : Peer π) : π → List Stage → List Reaction → Prop where
  | done {state : π} : Serves peer state [] []
  | deviates {state : π} {stage : Stage} {later : List Stage} {reaction : Reaction} {fault : Fault}
      (reacts : Reacts (stage.acts peer state).1 reaction)
      (deviation : stage.deviation? reaction = some fault) :
      Serves peer state (stage :: later) [reaction]
  | fits {state : π} {stage : Stage} {later : List Stage} {reaction : Reaction}
      {reactions : List Reaction} (reacts : Reacts (stage.acts peer state).1 reaction)
      (fits : stage.Fits reaction)
      (serves : Serves peer (stage.acts peer state).2 later reactions) :
      Serves peer state (stage :: later) (reaction :: reactions)

theorem exists_serves {π : Type} {peer : Peer π} (hgreet : ∃ reaction, Reacts peer.greet reaction)
    (hreact : ∀ state request, ∃ reaction, Reacts (peer.react state request).1 reaction)
    (state : π) (stages : List Stage) : ∃ reactions, Serves peer state stages reactions := by
  induction stages generalizing state with
  | nil => exact ⟨[], .done⟩
  | cons stage later ih =>
      have hacts : ∃ reaction, Reacts (stage.acts peer state).1 reaction := by
        cases stage with
        | greeting => exact hgreet
        | view name package => exact hreact state _
        | cards => exact hreact state _
      rcases hacts with ⟨reaction, hreacts⟩
      cases hdeviation : stage.deviation? reaction with
      | some fault => exact ⟨[reaction], .deviates hreacts hdeviation⟩
      | none =>
          rcases ih (stage.acts peer state).2 with ⟨reactions, hserves⟩
          exact ⟨reaction :: reactions, .fits hreacts hdeviation hserves⟩

/-- The last stage that the engine was asked at is the first one that it does not fit. -/
def Deviates (stages : List Stage) (reactions : List Reaction) (asked : List Stage)
    (fault : Fault) : Prop :=
  ∃ earlier stage later fitting reaction, stages = earlier ++ stage :: later ∧
    reactions = fitting ++ [reaction] ∧ List.Forall₂ Stage.Fits earlier fitting ∧
    stage.deviation? reaction = some fault ∧ asked = earlier ++ [stage]

namespace Deviates

theorem here {stage : Stage} {later : List Stage} {reaction : Reaction} {fault : Fault}
    (h : stage.deviation? reaction = some fault) :
    Deviates (stage :: later) [reaction] [stage] fault :=
  ⟨[], stage, later, [], reaction, rfl, rfl, .nil, h, rfl⟩

theorem cons {stage : Stage} {stages asked : List Stage} {reaction : Reaction}
    {reactions : List Reaction} {fault : Fault} (hfits : stage.Fits reaction)
    (h : Deviates stages reactions asked fault) :
    Deviates (stage :: stages) (reaction :: reactions) (stage :: asked) fault := by
  rcases h with ⟨earlier, last, later, fitting, final, rfl, rfl, hearlier, hdeviation, rfl⟩
  exact ⟨stage :: earlier, last, later, reaction :: fitting, final, rfl, rfl, .cons hfits hearlier,
    hdeviation, rfl⟩

theorem append {first stages asked : List Stage} {fitting reactions : List Reaction}
    {fault : Fault} (hfits : List.Forall₂ Stage.Fits first fitting)
    (h : Deviates stages reactions asked fault) :
    Deviates (first ++ stages) (fitting ++ reactions) (first ++ asked) fault := by
  induction hfits with
  | nil => exact h
  | cons hfirst _ ih => exact ih.cons hfirst

theorem not_fits {stages asked : List Stage} {reactions : List Reaction} {fault : Fault}
    (h : Deviates stages reactions asked fault) : ¬ List.Forall₂ Stage.Fits stages reactions := by
  rcases h with ⟨earlier, stage, later, fitting, reaction, rfl, rfl, hearlier, hdeviation, -⟩
  intro hall
  have hat := List.forall₂_drop earlier.length hall
  rw [List.drop_left, hearlier.length_eq, List.drop_left] at hat
  cases hat with
  | cons hfits _ =>
      rw [Stage.Fits, hdeviation] at hfits
      cases hfits

theorem unique {stages asked asked' : List Stage} {reactions : List Reaction}
    {fault fault' : Fault} (h : Deviates stages reactions asked fault)
    (h' : Deviates stages reactions asked' fault') : asked = asked' ∧ fault = fault' := by
  rcases h with ⟨earlier, stage, later, fitting, reaction, rfl, rfl, hearlier, hdeviation, rfl⟩
  rcases h' with ⟨earlier', stage', later', fitting', reaction', hstages, hreactions, hearlier',
    hdeviation', rfl⟩
  obtain ⟨rfl, hlast⟩ := List.append_inj' hreactions rfl
  cases hlast
  obtain ⟨rfl, hrest⟩ := List.append_inj hstages (hearlier.length_eq.trans hearlier'.length_eq.symm)
  cases hrest
  rw [hdeviation] at hdeviation'
  cases hdeviation'
  exact ⟨rfl, rfl⟩

end Deviates

/-! ## One stage -/

theorem Message.length_bytes (message : Message) : message.bytes.length =
    (Utf8.encodeChars (message.toValue.print .compact 0)).length := by
  rw [Message.bytes, Message.text, Json.Value.compact, Utf8.encode, String.toList_ofList]

namespace Session

variable {π : Type} {peer : Peer π} {state : π}

theorem perform_received (link : Link π) (acts : List Act) :
    (link.perform acts).received = link.received := by
  induction acts generalizing link with
  | nil => rfl
  | cons act rest ih =>
      cases act with
      | send bytes => exact ih { link with inbound := link.inbound ++ bytes }
      | hangUp => rfl

/-- The session waits for nothing, and the engine at its other end is in the state given. -/
structure Idle (s : Session π) (peer : Peer π) (state : π) : Prop where
  expects : s.dispatcher.Expects []
  peer : s.link.peer = peer
  state : s.link.state = state
  read : s.link.inbound = []
  connected : s.link.hungUp = false
  usable : s.closed = false

theorem await_reply {s : Session π} {link : Link π} {acts : List Act} {reaction : Reaction}
    {waiting : List Nat} (hexpects : s.dispatcher.Expects waiting) (hreacts : Reacts acts reaction)
    (hstays : reaction ≠ .closed) (hlink : s.link = link.perform acts) (hread : link.inbound = [])
    (hconnected : link.hungUp = false) (ticket : Nat) :
    ∃ next, s.await ticket =
        (((waiting.take 1).map fun who => (who, reaction.reply)).lookup ticket, next) ∧
      Continues [] s next ∧ next.dispatcher.Expects (waiting.drop 1) ∧ next.link = link := by
  rcases hreacts.exists_reply hstays with ⟨before, payload, after, hanswers, hcontent⟩
  rw [hanswers.acts, perform_frames, hread, List.nil_append] at hlink
  rcases listen_reply hexpects hanswers hcontent (congrArg Link.inbound hlink)
    ((congrArg Link.hungUp hlink).trans hconnected) with
    ⟨notices, next, hlisten, hanswered, hnext, hkept⟩
  refine ⟨next, ?_, hkept, hnext, ?_⟩
  · rw [await, hlisten]
    simp only [hanswered]
  · rw [hkept.link, hlink, ← hread]

/-- The wait that is under way comes to what the engine does.  Unless it hangs up, its reply is
read then and nobody waits. -/
theorem await_reaction {s : Session π} {link : Link π} {acts : List Act} {reaction : Reaction}
    {ticket : Nat} (hexpects : s.dispatcher.Expects [ticket]) (hreacts : Reacts acts reaction)
    (hlink : s.link = link.perform acts) (hread : link.inbound = [])
    (hconnected : link.hungUp = false) :
    ∃ next, s.await ticket = (some reaction.reply, next) ∧ Continues [] s next ∧
      (reaction ≠ .closed → next.dispatcher.Expects [] ∧ next.link = link) := by
  have hfound (reply : Reply) : [(ticket, reply)].lookup ticket = some reply := by
    rw [List.lookup_cons, beq_self_eq_true]
  by_cases hclosed : reaction = .closed
  · subst hclosed
    cases hreacts with
    | @closed before rest hangsUp hsizes hevents =>
        rw [hangsUp, perform_frames_append, hread, List.nil_append] at hlink
        rcases listen_lost hexpects hsizes hevents (congrArg Link.inbound hlink)
          (congrArg Link.hungUp hlink) with ⟨notices, next, hlisten, hanswered, hkept⟩
        refine ⟨next, ?_, hkept, fun hstays => absurd rfl hstays⟩
        rw [await, hlisten]
        simp only [hanswered, hfound]
        rfl
  · rcases await_reply hexpects hreacts hclosed hlink hread hconnected ticket with
      ⟨next, hawait, hkept, hnext⟩
    exact ⟨next, hawait.trans (congrArg (·, next) (hfound _)), hkept, fun _ => hnext⟩

def enlist (s : Session π) : Session π :=
  { s with
    dispatcher := { s.dispatcher with door := s.dispatcher.door ++ [s.ticket] }
    ticket := s.ticket + 1 }

theorem request_of_room {s : Session π} (hopen : s.closed = false)
    (hrunning : s.dispatcher.running = true)
    (hroom : s.dispatcher.door.length < s.dispatcher.capacity) (message : Message) :
    s.request message =
      match s.link.send s.label message.bytes with
      | .error fault => (some (.error (.connection (.frame fault))), s.enlist)
      | .ok link => { s.enlist with link := link }.await s.ticket := by
  rw [request, if_neg (by simp [hopen]), Dispatcher.register?_eq, if_pos ⟨hrunning, hroom⟩]
  cases hsend : s.link.send s.label message.bytes <;> simp only [hsend] <;> rfl

def handed (link : Link π) (payload : Bytes) : Link π :=
  { link with
    state := (link.peer.react link.state payload).2
    received := payload :: link.received }

def sending (s : Session π) (message : Message) : Session π :=
  { s.enlist with
    link := (handed s.link message.bytes).perform
      (s.link.peer.react s.link.state message.bytes).1 }

theorem request_sends {s : Session π} {message : Message} (hopen : s.closed = false)
    (hrunning : s.dispatcher.running = true)
    (hroom : s.dispatcher.door.length < s.dispatcher.capacity) (hconnected : s.link.hungUp = false)
    (hsize : message.bytes.length < 0x100000000) :
    s.request message = (s.sending message).await s.ticket := by
  have hsend : s.link.send s.label message.bytes = .ok (s.sending message).link := by
    rw [Link.send, if_neg (Nat.not_le.mpr hsize), if_neg (by simp [hconnected])]
    rfl
  rw [request_of_room hopen hrunning hroom, hsend]
  rfl

theorem request_reaction {s : Session π} {message : Message} {reaction : Reaction}
    (hidle : s.Idle peer state) (hsize : message.bytes.length < 0x100000000)
    (hreacts : Reacts (peer.react state message.bytes).1 reaction) :
    ∃ next, s.request message = (some reaction.reply, next) ∧
      next.received = s.received ++ [message.bytes] ∧ next.engine = s.engine ∧
      next.views = s.views ∧
      (reaction ≠ .closed → next.Idle peer (peer.react state message.bytes).2) := by
  obtain ⟨hexpects, rfl, rfl, hread, hconnected, husable⟩ := hidle
  rcases @await_reaction _ (s.sending message) (handed s.link message.bytes) _ _ _
      (hexpects.join s.ticket) hreacts rfl hread hconnected with ⟨next, hawait, hkept, hstays⟩
  refine ⟨next, ?_, ?_, hkept.engine, hkept.views, fun hopen => ?_⟩
  · rw [request_sends husable hexpects.running hexpects.room hconnected hsize]
    exact hawait
  · rw [received, hkept.link]
    exact (congrArg List.reverse (perform_received _ _)).trans List.reverse_cons
  · rcases hstays hopen with ⟨hnext, hlink⟩
    exact ⟨hnext, by rw [hlink]; rfl, by rw [hlink]; rfl, by rw [hlink]; exact hread,
      by rw [hlink]; exact hconnected, hkept.closed.trans husable⟩

/-! ## Checking the reply -/

theorem bind_of_deviation {α : Type} {stage : Stage} {check : Message → Except Fault α}
    (hcheck : ∀ said fault, stage.complaint? said = some fault → check said = .error fault)
    {reaction : Reaction} {fault : Fault} (h : stage.deviation? reaction = some fault) :
    reaction.reply.bind check = .error fault := by
  cases reaction with
  | message said => exact hcheck said fault h
  | garbled _ | closed =>
      cases h
      rfl

theorem greeted_of_complaint (said : Message) (fault : Fault)
    (h : Stage.greeting.complaint? said = some fault) : greeted said = .error fault := by
  cases said <;> cases h <;> rfl

theorem imported_of_complaint {name package : String} (said : Message) (fault : Fault)
    (h : (Stage.view name package).complaint? said = some fault) : imported said = .error fault := by
  cases said <;> cases h <;> rfl

theorem returned_of_complaint (said : Message) (fault : Fault)
    (h : Stage.cards.complaint? said = some fault) :
    returned cardLoader.1 cardLoader.2 said = .error fault := by
  cases said <;> cases h <;> rfl

end Session

namespace Stage.Fits

variable {reaction : Reaction}

theorem not_closed {stage : Stage} (h : stage.Fits reaction) : reaction ≠ .closed := by
  rintro rfl
  cases h

theorem greeting (h : Stage.greeting.Fits reaction) :
    ∃ name version, reaction = .message (.ready name version) := by
  cases reaction with
  | garbled _ | closed => cases h
  | message said =>
      cases said <;> cases h
      exact ⟨_, _, rfl⟩

theorem view {name package : String} (h : (Stage.view name package).Fits reaction) :
    ∃ named, reaction = .message (.imported named) := by
  cases reaction with
  | garbled _ | closed => cases h
  | message said =>
      cases said <;> cases h
      exact ⟨_, rfl⟩

theorem cards (h : Stage.cards.Fits reaction) :
    ∃ value, reaction = .message (.returnValue value) := by
  cases reaction with
  | garbled _ | closed => cases h
  | message said =>
      cases said <;> cases h
      exact ⟨_, rfl⟩

end Stage.Fits

/-! ## All stages -/

namespace Session

variable {π : Type} {peer : Peer π} {state : π} {later : List Stage} {reactions : List Reaction}

/-- It ends with the fault of the first stage that the engine does not fit, and after the requests
given only those of the stages up to that one were sent. -/
def FallsShort {α : Type} (stages : List Stage) (reactions : List Reaction) (sent : List Bytes)
    (ending : Wait α × Session π) : Prop :=
  ∃ asked fault next, Deviates stages reactions asked fault ∧
    ending = (some (.error fault), next) ∧ next.received = sent ++ Stage.requests asked

theorem awaitReady_serves (label : String)
    (h : Serves peer state (.greeting :: later) reactions) :
    (∃ name version rest next, reactions = .message (.ready name version) :: rest ∧
      Serves peer state later rest ∧
      (start label (Link.start peer state)).awaitReady = (some (.ok ()), next) ∧
      next.Idle peer state ∧ next.engine = (name, version) ∧ next.views = [] ∧
      next.received = []) ∨
    FallsShort (.greeting :: later) reactions []
      (start label (Link.start peer state)).awaitReady := by
  rcases Dispatcher.expects_start.register 0 with ⟨d, hregister, hd⟩
  have hawaited {reaction : Reaction} (hreacts : Reacts peer.greet reaction) :=
    @await_reaction _ { start label (Link.start peer state) with dispatcher := d, ticket := 1 }
      ⟨peer, state, [], false, []⟩ _ _ _ hd hreacts rfl rfl rfl
  cases h with
  | @deviates _ _ _ reaction fault hreacts hdeviation =>
      rcases hawaited hreacts with ⟨next, hawait, hkept, -⟩
      refine Or.inr ⟨_, fault, next, .here hdeviation, ?_, ?_⟩
      · rw [awaitReady]
        simp only [start] at hawait ⊢
        simp only [hregister, hawait, bind_of_deviation greeted_of_complaint hdeviation]
      · rw [received, hkept.link]
        exact congrArg List.reverse (perform_received _ _)
  | @fits _ _ _ reaction rest hreacts hfits hserves =>
      rcases hfits.greeting with ⟨name, version, rfl⟩
      rcases hawaited hreacts with ⟨next, hawait, hkept, hstays⟩
      rcases hstays hfits.not_closed with ⟨hexpects, hlink⟩
      refine Or.inl ⟨name, version, rest, { next with engine := (name, version) }.report .info
        s!"Connected to {name} v{version}", rfl, hserves, ?_, ?_, rfl, hkept.views, ?_⟩
      · rw [awaitReady]
        simp only [start] at hawait ⊢
        simp only [hregister, hawait]
        rfl
      · exact ⟨hexpects, congrArg Link.peer hlink, congrArg Link.state hlink,
          congrArg Link.inbound hlink, congrArg Link.hungUp hlink, hkept.closed⟩
      · exact congrArg (fun link : Link π => link.received.reverse) hlink

theorem importViews_imported {s next : Session π} {view package named : String}
    (hrequest : s.request (.importPackage view package) = (some (.ok (.imported named)), next))
    (rest : List (String × String)) :
    ∃ noted : Session π, s.importViews ((view, package) :: rest) = noted.importViews rest ∧
      noted.dispatcher = next.dispatcher ∧ noted.link = next.link ∧ noted.closed = next.closed ∧
      noted.engine = next.engine ∧ noted.views = next.views ++ [view] := by
  rw [importViews, hrequest]
  by_cases hsame : named = view
  · refine ⟨{ next with views := next.views ++ [view] }, ?_, rfl, rfl, rfl, rfl, rfl⟩
    simp only [Except.bind, imported, if_pos hsame]
  · refine ⟨{ next.report .warn s!"Imported view mismatch: expected {view}, got {named}" with
      views := next.views ++ [view] }, ?_, rfl, rfl, rfl, rfl, rfl⟩
    simp only [Except.bind, imported, if_neg hsame]
    rfl

theorem importViews_serves {views : List (String × String)} {s : Session π}
    (hidle : s.Idle peer state)
    (hsizes : ∀ v ∈ views, (Message.importPackage v.1 v.2).bytes.length < 0x100000000)
    (h : Serves peer state (Stage.ofViews views ++ later) reactions) :
    (∃ named : List String, ∃ rest after next, named.length = views.length ∧
      reactions = named.map (fun view => .message (.imported view)) ++ rest ∧
      Serves peer after later rest ∧ s.importViews views = (some (.ok ()), next) ∧
      next.Idle peer after ∧ next.engine = s.engine ∧
      next.views = s.views ++ views.map Prod.fst ∧
      next.received = s.received ++ Stage.requests (Stage.ofViews views)) ∨
    FallsShort (Stage.ofViews views ++ later) reactions s.received (s.importViews views) := by
  induction views generalizing s state reactions with
  | nil =>
      exact Or.inl ⟨[], reactions, state, s, rfl, rfl, h, rfl, hidle, rfl,
        (List.append_nil _).symm, (List.append_nil _).symm⟩
  | cons v views ih =>
      obtain ⟨view, package⟩ := v
      have hsize := hsizes (view, package) List.mem_cons_self
      cases h with
      | @deviates _ _ _ reaction fault hreacts hdeviation =>
          rcases request_reaction hidle hsize hreacts with ⟨next, hrequest, hreceived, -⟩
          refine Or.inr ⟨_, fault, next, .here hdeviation, ?_, hreceived⟩
          rw [importViews, hrequest]
          simp only [bind_of_deviation imported_of_complaint hdeviation]
      | @fits _ _ _ reaction rest hreacts hfits hserves =>
          rcases hfits.view with ⟨named, rfl⟩
          rcases request_reaction hidle hsize hreacts with
            ⟨next, hrequest, hreceived, hengine, hviews, hstays⟩
          have hnext := hstays hfits.not_closed
          rcases importViews_imported hrequest views with
            ⟨noted, himport, hdispatcher, hlink, hclosed, hengine', hviews'⟩
          have hnoted : noted.Idle peer _ :=
            ⟨hdispatcher ▸ hnext.expects, hlink ▸ hnext.peer, hlink ▸ hnext.state,
              hlink ▸ hnext.read, hlink ▸ hnext.connected, hclosed.trans hnext.usable⟩
          have hgot : noted.received = s.received ++ Stage.requests [.view view package] := by
            rw [received, hlink]
            exact hreceived
          rw [himport]
          rcases ih hnoted (fun v hv => hsizes v (List.mem_cons_of_mem _ hv)) hserves with
            ⟨others, left, after, last, hlength, rfl, hlater, hlast, hidle, hsame, hall, hasked⟩ |
            ⟨asked, fault, last, hdeviates, hlast, hasked⟩
          · refine Or.inl ⟨named :: others, left, after, last, congrArg (· + 1) hlength, rfl,
              hlater, hlast, hidle, ?_, ?_, ?_⟩
            · rw [hsame, hengine', hengine]
            · rw [hall, hviews', hviews, List.append_assoc]
              rfl
            · rw [hasked, hgot, List.append_assoc, ← Stage.requests_append]
              rfl
          · refine Or.inr ⟨.view view package :: asked, fault, last, hdeviates.cons hfits, hlast, ?_⟩
            rw [hasked, hgot, List.append_assoc, ← Stage.requests_append]
            rfl

theorem invoke_serves {s : Session π} (hidle : s.Idle peer state)
    (h : Serves peer state [.cards] reactions) :
    (∃ value next, reactions = [.message (.returnValue value)] ∧
      s.invoke cardLoader.1 cardLoader.2 [] = (some (.ok value), next) ∧
      next.engine = s.engine ∧ next.views = s.views ∧
      next.received = s.received ++ Stage.requests [.cards] ∧ ∃ after, next.Idle peer after) ∨
    FallsShort [.cards] reactions s.received (s.invoke cardLoader.1 cardLoader.2 []) := by
  have hsize : (Message.invoke cardLoader.1 cardLoader.2 []).bytes.length < 0x100000000 := by
    rw [Message.length_bytes]
    decide +kernel
  cases h with
  | @deviates _ _ _ reaction fault hreacts hdeviation =>
      rcases request_reaction hidle hsize hreacts with ⟨next, hrequest, hreceived, -⟩
      refine Or.inr ⟨_, fault, next, .here hdeviation, ?_, hreceived⟩
      rw [invoke, hrequest]
      exact congrArg (some · , next) (bind_of_deviation returned_of_complaint hdeviation)
  | @fits _ _ _ reaction rest hreacts hfits hserves =>
      cases hserves
      rcases hfits.cards with ⟨value, rfl⟩
      rcases request_reaction hidle hsize hreacts with
        ⟨next, hrequest, hreceived, hengine, hviews, hstays⟩
      refine Or.inl ⟨value, next, rfl, ?_, hengine, hviews, hreceived, _, hstays hfits.not_closed⟩
      rw [invoke, hrequest]
      rfl

theorem begin_serves (label : String) (h : Serves peer state Stage.handshake reactions) :
    (∃ name version, ∃ named : List String, ∃ value next,
      named.length = Engine.views.length ∧ reactions = Stage.welcome name version named value ∧
      (start label (Link.start peer state)).begin = (some (.ok ()), next) ∧
      next.engine = (name, version) ∧ next.views = Engine.views.map Prod.fst ∧
      next.received = Stage.requests Stage.handshake ∧ ∃ after, next.Idle peer after) ∨
    FallsShort Stage.handshake reactions [] (start label (Link.start peer state)).begin := by
  have hsizes : ∀ v ∈ Engine.views,
      (Message.importPackage v.1 v.2).bytes.length < 0x100000000 := by
    simp only [Message.length_bytes]
    decide +kernel
  rcases awaitReady_serves label h with
    ⟨name, version, rest, ready, rfl, hrest, hready, hidle, hengine, hviews, hreceived⟩ |
    ⟨asked, fault, next, hdeviates, hready, hreceived⟩
  · rcases importViews_serves hidle hsizes hrest with
      ⟨named, last, after, imported, hlength, rfl, hlast, himport, hidle', hengine', hviews',
        hreceived'⟩ |
      ⟨asked, fault, next, hdeviates, himport, hreceived'⟩
    · rcases invoke_serves hidle' hlast with
        ⟨value, loaded, rfl, hinvoke, hengine'', hviews'', hreceived'', last, hidle''⟩ |
        ⟨asked, fault, next, hdeviates, hinvoke, hreceived''⟩
      · refine Or.inl ⟨name, version, named, value, { loaded with told := [] }.report .info
          s!"Engine ready with {loaded.views.length} views", hlength, rfl, ?_, ?_, ?_, ?_, last,
          hidle''.expects, hidle''.peer, hidle''.state, hidle''.read, hidle''.connected,
          hidle''.usable⟩
        · rw [begin, hready]
          simp only [himport, hinvoke]
        · exact hengine''.trans (hengine'.trans hengine)
        · refine hviews''.trans (hviews'.trans ?_)
          rw [hviews, List.nil_append]
        · refine hreceived''.trans ?_
          rw [hreceived', hreceived, List.nil_append, ← Stage.requests_append]
          rfl
      · refine Or.inr ⟨_, fault, next,
          (hdeviates.append (Stage.forall₂_fits_imported hlength)).cons rfl, ?_, ?_⟩
        · rw [begin, hready]
          simp only [himport, hinvoke]
        · rw [hreceived'', hreceived', hreceived, List.nil_append, ← Stage.requests_append]
          rfl
    · refine Or.inr ⟨_, fault, next, hdeviates.cons rfl, ?_, ?_⟩
      · rw [begin, hready]
        simp only [himport]
      · rw [hreceived', hreceived]
        rfl
  · refine Or.inr ⟨asked, fault, next, hdeviates, ?_, hreceived⟩
    rw [begin, hready]

/-- An engine that never fails to react keeps no session waiting. -/
theorem begin_ends (label : String) (hgreet : ∃ reaction, Reacts peer.greet reaction)
    (hreact : ∀ state request, ∃ reaction, Reacts (peer.react state request).1 reaction)
    (state : π) :
    ∃ outcome next, (start label (Link.start peer state)).begin = (some outcome, next) := by
  rcases exists_serves hgreet hreact state Stage.handshake with ⟨reactions, hserves⟩
  rcases begin_serves label hserves with
    ⟨_, _, _, _, next, -, -, hbegin, -⟩ | ⟨_, fault, next, -, hbegin, -⟩
  · exact ⟨.ok (), next, hbegin⟩
  · exact ⟨.error fault, next, hbegin⟩

/-- Whatever an engine does, a session begins exactly if the engine is ready, gives every view
that it is asked for and returns something when the cards are loaded; then it was asked for the
views of the catalogue in order and to load the cards, and for nothing else.  Otherwise the fault
is the one of the first thing that the engine does not do, and nothing was asked after that. -/
theorem begins_exactly_if_engine_fits (transport : Transport)
    (h : Serves peer state Stage.handshake reactions) :
    let outcome := ((start transport.label (Link.start peer state)).begin).1
    let s := ((start transport.label (Link.start peer state)).begin).2
    (outcome = some (.ok ()) ↔ ∃ name version, ∃ named : List String, ∃ value,
      named.length = Engine.views.length ∧ reactions = Stage.welcome name version named value) ∧
    (outcome = some (.ok ()) → reactions.head? = some (.message (.ready s.engine.1 s.engine.2)) ∧
      s.views = Engine.views.map Prod.fst ∧
      s.received = Engine.views.map (fun v => (Message.importPackage v.1 v.2).bytes) ++
        [(Message.invoke ⟨"cards", "CardCatalogue"⟩ "loadCardsFromPackage" []).bytes]) ∧
    (outcome ≠ some (.ok ()) → ∃ asked fault, Deviates Stage.handshake reactions asked fault ∧
      outcome = some (.error fault) ∧ s.received = Stage.requests asked) := by
  rcases begin_serves transport.label h with
    ⟨name, version, named, value, next, hlength, rfl, hbegin, hengine, hviews, hreceived, -⟩ |
    ⟨asked, fault, next, hdeviates, hbegin, hreceived⟩
  · rw [hbegin]
    refine ⟨?_, ?_, ?_⟩
    · exact iff_of_true rfl ⟨name, version, named, value, hlength, rfl⟩
    · refine fun _ => ⟨?_, hviews, hreceived⟩
      simp only [hengine]
      rfl
    · exact fun hfails => absurd rfl hfails
  · rw [hbegin]
    have hfails : some (.error fault) ≠ (some (.ok ()) : Wait Unit) := by
      rintro ⟨⟩
    refine ⟨?_, ?_, ?_⟩
    · refine iff_of_false hfails ?_
      rintro ⟨name, version, named, value, hlength, rfl⟩
      exact hdeviates.not_fits (Stage.forall₂_fits_welcome hlength)
    · exact fun hok => absurd hok hfails
    · exact fun _ => ⟨asked, fault, hdeviates, rfl, hreceived⟩

/-- An engine that tells of an event before it is ready, calls the first view by another name and
hangs up when it is asked for the second. -/
def leaver : Peer Nat where
  greet := [.frame (Message.event ⟨"GameOver", .null⟩).bytes, .frame (Message.ready "" "").bytes]
  react asked _ :=
    (if asked = 0 then [.frame (Message.imported "").bytes] else [.hangUp], asked + 1)

theorem leaver_serves :
    Serves leaver 0 Stage.handshake
      [.message (.ready "" ""), .message (.imported ""), .closed] := by
  have hgreet : Answers leaver.greet [(Message.event ⟨"GameOver", .null⟩).bytes]
      (Message.ready "" "").bytes [] :=
    ⟨rfl, by decide, List.forall_mem_singleton.mpr ⟨_, rfl⟩, List.forall_mem_nil _⟩
  have hview : Answers [.frame (Message.imported "").bytes] [] (Message.imported "").bytes [] :=
    ⟨rfl, by decide, List.forall_mem_nil _, List.forall_mem_nil _⟩
  have hleave : Reacts [.hangUp] .closed :=
    @Reacts.closed _ [] [] rfl (List.forall_mem_nil _) (List.forall_mem_nil _)
  have hready : Message.ofBytes (Message.ready "" "").bytes = .ok (.ready "" "") := rfl
  have himported : Message.ofBytes (Message.imported "").bytes = .ok (.imported "") := rfl
  exact .fits (.message hgreet hready nofun) rfl
    (.fits (.message hview himported nofun) rfl (.deviates hleave rfl))

theorem leaver_never_begins :
    let begun := (start Transport.tcp.label (Link.start leaver 0)).begin
    begun.1 = some (.error (.connection .lost)) ∧
      begun.2.received =
        [(Message.importPackage "game" "net.demilich.metastone.game.*").bytes,
          (Message.importPackage "entities" "net.demilich.metastone.game.entities.*").bytes] := by
  have hdeviates : Deviates Stage.handshake
      [.message (.ready "" ""), .message (.imported ""), .closed]
      (Stage.handshake.take 3) (.connection .lost) := .cons rfl (.cons rfl (.here rfl))
  rcases begins_exactly_if_engine_fits .tcp leaver_serves with ⟨hbegins, -, hfails⟩
  have hnever : ((start Transport.tcp.label (Link.start leaver 0)).begin).1 ≠ some (.ok ()) := by
    intro hbegun
    rcases hbegins.mp hbegun with ⟨name, version, named, value, hlength, hreactions⟩
    rw [hreactions] at hdeviates
    exact hdeviates.not_fits (Stage.forall₂_fits_welcome hlength)
  rcases hfails hnever with ⟨asked, fault, hfirst, houtcome, hreceived⟩
  obtain ⟨rfl, rfl⟩ := hfirst.unique hdeviates
  exact ⟨houtcome, hreceived⟩

end Session

end Engine
end Cardsmith
