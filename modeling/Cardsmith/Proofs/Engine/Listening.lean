import Cardsmith.Proofs.Engine.ExchangeSession

/-!
# Listening between requests

What a session hears of an engine that gives one reply, or hangs up, and tells of events around
that: the one registration that waits is answered, and nobody waits any more.
-/

namespace Cardsmith
namespace Engine

/-! ## Who waits -/

/-- These wait for replies, in this order; nobody has gone, and frames are read. -/
structure Dispatcher.Expects (d : Dispatcher Nat) (waiting : List Nat) : Prop where
  waiting : d.pending ++ d.door = waiting
  there : d.gone = []
  running : d.running = true
  capacity : d.capacity = doorCapacity

namespace Dispatcher

variable {d : Dispatcher Nat} {waiting : List Nat} {payload : Bytes}

theorem expects_start : (start doorCapacity : Dispatcher Nat).Expects [] := ⟨rfl, rfl, rfl, rfl⟩

theorem Expects.room (h : d.Expects []) : d.door.length < d.capacity := by
  rw [(List.append_eq_nil_iff.mp h.waiting).right, h.capacity]
  decide

theorem Expects.join (h : d.Expects waiting) (who : Nat) :
    Expects { d with door := d.door ++ [who] } (waiting ++ [who]) := by
  refine ⟨?_, h.there, h.running, h.capacity⟩
  rw [← h.waiting, List.append_assoc]

theorem Expects.register (h : d.Expects []) (who : Nat) :
    ∃ next, d.register? who = some next ∧ next.Expects [who] := by
  refine ⟨_, ?_, h.join who⟩
  rw [register?_eq, if_pos ⟨h.running, h.room⟩]

theorem Expects.receive_event (h : d.Expects waiting) {told : Event}
    (hcontent : Content.ofFrame payload = .event told) :
    ∃ next, d.receive payload = ([.told told], next) ∧ next.Expects waiting := by
  refine ⟨d.letIn, dispatch_event hcontent d.letIn, ?_, h.there, h.running, h.capacity⟩
  exact (List.append_nil _).trans h.waiting

theorem Expects.receive_reply (h : d.Expects waiting) {reply : Reply}
    (hcontent : Content.ofFrame payload = .reply reply) :
    ∃ notices next, d.receive payload = (notices, next) ∧
      Notice.answers notices = (waiting.take 1).map (fun who => (who, reply)) ∧
      next.Expects (waiting.drop 1) := by
  have hletIn : d.letIn.gone = [] := h.there
  rcases dispatch_reply hcontent hletIn with ⟨notices, hdispatch, hdelivers⟩
  have hpending : d.letIn.pending = waiting := h.waiting
  rw [hpending] at hdispatch hdelivers
  refine ⟨notices, _, hdispatch, hdelivers.answers, ?_, h.there, h.running, h.capacity⟩
  exact List.append_nil _

theorem Expects.lose (h : d.Expects waiting) :
    Notice.answers d.lose.1 = waiting.map fun who => (who, .error (.connection .lost)) := by
  rw [lose_of_all_there h.there, h.waiting, Notice.answers_map_answered]

end Dispatcher

/-! ## What is heard -/

namespace Session

variable {π : Type}

/-- A session goes on with the bytes given still to read; only what it heard is different. -/
structure Continues (inbound : Bytes) (s next : Session π) : Prop where
  label : next.label = s.label
  link : next.link = { s.link with inbound := inbound }
  ticket : next.ticket = s.ticket
  closed : next.closed = s.closed
  engine : next.engine = s.engine
  views : next.views = s.views

theorem Continues.trans {first second : Bytes} {s next last : Session π}
    (h : Continues first s next) (h' : Continues second next last) : Continues second s last where
  label := h'.label.trans h.label
  link := by rw [h'.link, h.link]
  ticket := h'.ticket.trans h.ticket
  closed := h'.closed.trans h.closed
  engine := h'.engine.trans h.engine
  views := h'.views.trans h.views

theorem listenUpTo_frame {s : Session π} {payload rest : Bytes} {notices : List (Notice Nat)}
    {d : Dispatcher Nat} (hrunning : s.dispatcher.running = true)
    (hsize : payload.length ≤ Frame.maxSize)
    (hinbound : s.link.inbound = Frame.encode payload ++ rest)
    (hreceive : s.dispatcher.receive payload = (notices, d)) (limit : Nat) :
    ∃ next : Session π, s.listenUpTo (limit + 1) =
        (notices ++ (next.listenUpTo limit).1, (next.listenUpTo limit).2) ∧
      next.dispatcher = d ∧ Continues rest s next := by
  have hstream : [s.link.inbound].flatten = Frame.encode payload ++ rest := by
    rw [List.flatten_singleton, hinbound]
  rcases Frame.read_encode_append s.label hstream hsize with ⟨left, hread, rfl⟩
  refine ⟨{ s.note notices d with link := { s.link with inbound := left.flatten } }, ?_, rfl,
    rfl, rfl, rfl, rfl, rfl, rfl⟩
  rw [listenUpTo, if_pos hrunning, hread]
  simp only [hreceive]

theorem listenUpTo_lost {s : Session π} {waiting : List Nat}
    (hexpects : s.dispatcher.Expects waiting) (hinbound : s.link.inbound = [])
    (hlost : s.link.hungUp = true) (limit : Nat) :
    ∃ notices next, s.listenUpTo (limit + 1) = (notices, next) ∧
      Notice.answers notices = waiting.map (fun who => (who, .error (.connection .lost))) ∧
      Continues [] s next := by
  rw [listenUpTo, if_pos hexpects.running, hinbound, Frame.read_nothing]
  simp only [hlost, Bool.not_true, Bool.false_eq_true, if_false]
  refine ⟨_, _, rfl, hexpects.lose, rfl, ?_, rfl, rfl, rfl, rfl⟩
  rw [← hinbound]
  rfl

theorem listenUpTo_events {s : Session π} {frames : List Bytes} {rest : Bytes} {waiting : List Nat}
    (hexpects : s.dispatcher.Expects waiting)
    (hsizes : ∀ p ∈ frames, p.length ≤ Frame.maxSize)
    (hevents : ∀ p ∈ frames, ∃ told, Content.ofFrame p = .event told)
    (hinbound : s.link.inbound = frames.flatMap Frame.encode ++ rest) (limit : Nat) :
    ∃ notices, ∃ next : Session π, s.listenUpTo (limit + frames.length) =
        (notices ++ (next.listenUpTo limit).1, (next.listenUpTo limit).2) ∧
      Notice.answers notices = [] ∧ next.dispatcher.Expects waiting ∧ Continues rest s next := by
  induction frames generalizing s with
  | nil =>
      refine ⟨[], s, rfl, rfl, hexpects, rfl, ?_, rfl, rfl, rfl, rfl⟩
      rw [← show s.link.inbound = rest from hinbound]
  | cons payload frames ih =>
      rw [List.flatMap_cons, List.append_assoc] at hinbound
      rcases hevents payload List.mem_cons_self with ⟨told, hcontent⟩
      rcases hexpects.receive_event hcontent with ⟨d, hreceive, hd⟩
      rcases listenUpTo_frame hexpects.running (hsizes payload List.mem_cons_self) hinbound
        hreceive (limit + frames.length) with ⟨next, hlisten, rfl, hnext⟩
      have hlink : next.link.inbound = frames.flatMap Frame.encode ++ rest := by rw [hnext.link]
      rcases ih hd (fun p hp => hsizes p (List.mem_cons_of_mem _ hp))
        (fun p hp => hevents p (List.mem_cons_of_mem _ hp)) hlink with
        ⟨notices, last, hmore, hanswers, hlast, hcontinues⟩
      refine ⟨.told told :: notices, last, ?_, hanswers, hlast, hnext.trans hcontinues⟩
      rw [List.length_cons, ← Nat.add_assoc, hlisten, hmore]
      rfl

theorem listen_reply {s : Session π} {acts : List Act} {before after : List Bytes}
    {payload : Bytes} {reply : Reply} {waiting : List Nat} (hexpects : s.dispatcher.Expects waiting)
    (hanswers : Answers acts before payload after)
    (hcontent : Content.ofFrame payload = .reply reply)
    (hinbound : s.link.inbound = (before ++ payload :: after).flatMap Frame.encode)
    (hconnected : s.link.hungUp = false) :
    ∃ notices next, s.listen = (notices, next) ∧
      Notice.answers notices = (waiting.take 1).map (fun who => (who, reply)) ∧
      next.dispatcher.Expects (waiting.drop 1) ∧ Continues [] s next := by
  have hsize (p : Bytes) (hp : p ∈ payload :: after) : p.length ≤ Frame.maxSize :=
    hanswers.sizes p (List.mem_append_right _ hp)
  obtain ⟨spare, hlimit⟩ : ∃ spare, s.link.inbound.length + 1 =
      spare + after.length + 1 + before.length := by
    have hlength := Frame.length_le_length_flatMap_encode (before ++ payload :: after)
    rw [← hinbound, List.length_append, List.length_cons] at hlength
    exact ⟨s.link.inbound.length - before.length - after.length, by omega⟩
  rw [List.flatMap_append, List.flatMap_cons] at hinbound
  rcases listenUpTo_events hexpects
    (fun p hp => hanswers.sizes p (List.mem_append_left _ hp)) hanswers.before hinbound
    (spare + after.length + 1) with ⟨early, first, hearly, hnone, hfirst, hkept⟩
  rcases hfirst.receive_reply hcontent with ⟨answer, d, hreceive, hanswered, hd⟩
  have hreply : first.link.inbound =
      Frame.encode payload ++ after.flatMap Frame.encode := by rw [hkept.link]
  rcases listenUpTo_frame hfirst.running (hsize payload List.mem_cons_self) hreply hreceive
    (spare + after.length) with ⟨second, hsecond, rfl, hkept'⟩
  have hrest : second.link.inbound = after.flatMap Frame.encode ++ [] := by
    rw [hkept'.link, List.append_nil]
  rcases listenUpTo_events hd (fun p hp => hsize p (List.mem_cons_of_mem _ hp)) hanswers.after
    hrest spare with ⟨late, last, hlate, hnone', hlast, hkept''⟩
  have hconnectedLast : last.link.hungUp = false := by
    rw [hkept''.link, hkept'.link, hkept.link]
    exact hconnected
  have hquiet := listenUpTo_quiet (s := last) (by rw [hkept''.link]) hconnectedLast spare
  refine ⟨early ++ (answer ++ (late ++ [])), last, ?_, ?_, hlast,
    (hkept.trans hkept').trans hkept''⟩
  · rw [listen, hlimit, hearly, hsecond, hlate, hquiet]
  · rw [Notice.answers_append, Notice.answers_append, Notice.answers_append, hnone, hnone',
      hanswered, List.nil_append]
    exact List.append_nil _

theorem listen_lost {s : Session π} {frames : List Bytes} {ticket : Nat}
    (hexpects : s.dispatcher.Expects [ticket]) (hsizes : ∀ p ∈ frames, p.length ≤ Frame.maxSize)
    (hevents : ∀ p ∈ frames, ∃ told, Content.ofFrame p = .event told)
    (hinbound : s.link.inbound = frames.flatMap Frame.encode) (hlost : s.link.hungUp = true) :
    ∃ notices next, s.listen = (notices, next) ∧
      Notice.answers notices = [(ticket, .error (.connection .lost))] ∧ Continues [] s next := by
  obtain ⟨spare, hlimit⟩ : ∃ spare, s.link.inbound.length + 1 = spare + 1 + frames.length := by
    have hlength := Frame.length_le_length_flatMap_encode frames
    rw [← hinbound] at hlength
    exact ⟨s.link.inbound.length - frames.length, by omega⟩
  rw [← List.append_nil (frames.flatMap Frame.encode)] at hinbound
  rcases listenUpTo_events hexpects hsizes hevents hinbound (spare + 1) with
    ⟨early, first, hearly, hnone, hfirst, hkept⟩
  have hlostFirst : first.link.hungUp = true := by
    rw [hkept.link]
    exact hlost
  rcases listenUpTo_lost hfirst (by rw [hkept.link]) hlostFirst spare with
    ⟨told, last, hlast, hanswers, hkept'⟩
  refine ⟨early ++ told, last, ?_, ?_, hkept.trans hkept'⟩
  · rw [listen, hlimit, hearly, hlast]
  · rw [Notice.answers_append, hnone, hanswers]
    rfl

end Session
end Engine
end Cardsmith
