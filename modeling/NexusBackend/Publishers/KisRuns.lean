import NexusBackend.Persistence.MarketTick
import NexusBackend.Publishers.KisPublisher

/-!
What holds in every run of `KisPublisher`, with its task started, stopped, crashed and started
again: the items of the frames are published one by one in their order, and the observer is handed
what the worker reads from the messages that Redis took.
-/
namespace NexusBackend

open Python Transition
open KisClient (StreamItem Delivery handleFrame ownItems)

namespace KisPublisher

/-! ### The books of a run -/

def framesOf (tr : List KisEvent) : List Delivery :=
  tr.filterMap fun
    | .received d => some d
    | _ => none

/-- The items that Redis took, with their messages. -/
def acceptedItems (tr : List KisEvent) : List (StreamItem × Text) :=
  tr.filterMap fun
    | .accepted item payload => some (item, payload)
    | _ => none

def lostItems (tr : List KisEvent) : List StreamItem :=
  tr.filterMap fun
    | .lost item => some item
    | _ => none

/-- The items that were published or lost. -/
def settledItems (tr : List KisEvent) : List StreamItem :=
  tr.filterMap fun
    | .accepted item _ => some item
    | .lost item => some item
    | _ => none

def handedTicks (tr : List KisEvent) : List Tick :=
  tr.filterMap fun
    | .handed tick => some tick
    | _ => none

def acceptedTicks (tr : List KisEvent) : List Tick :=
  (acceptedItems tr).filterMap fun p => p.1.tick?

/-- A session was stopped, or it failed. -/
def Ended (tr : List KisEvent) : Prop := .halted ∈ tr ∨ ∃ e, .failed e ∈ tr

/-- The books of a run, with what is left of the last frame. -/
structure Books (observed : Bool) (py : Json.Printing) (s : KisPublisher) (tr : List KisEvent)
    (left : List StreamItem) : Prop where
  settled : settledItems tr ++ left = (framesOf tr).flatMap ownItems
  lost : lostItems tr ≠ [] → Ended tr
  published : s.published = (acceptedItems tr).length
  payloads : ∀ p ∈ acceptedItems tr, p.1.payload py = .ok p.2
  handed : handedTicks tr = if observed then acceptedTicks tr else []

/-- The message that is on its way is that of its item. -/
def PayloadReady (py : Json.Printing) : KisPhase → Prop
  | .publishing item payload _ => item.payload py = .ok payload
  | _ => True

structure Sound (observed : Bool) (py : Json.Printing) (s : KisPublisher) (tr : List KisEvent) :
    Prop where
  books : Books observed py s tr s.pending
  ready : PayloadReady py s.phase

section
variable {observed : Bool} {py : Json.Printing} {s : KisPublisher} {tr : List KisEvent}
  {left : List StreamItem}

theorem framesOf_append (tr es : List KisEvent) :
    framesOf (tr ++ es) = framesOf tr ++ framesOf es := List.filterMap_append

theorem acceptedItems_append (tr es : List KisEvent) :
    acceptedItems (tr ++ es) = acceptedItems tr ++ acceptedItems es := List.filterMap_append

theorem lostItems_append (tr es : List KisEvent) :
    lostItems (tr ++ es) = lostItems tr ++ lostItems es := List.filterMap_append

theorem settledItems_append (tr es : List KisEvent) :
    settledItems (tr ++ es) = settledItems tr ++ settledItems es := List.filterMap_append

theorem handedTicks_append (tr es : List KisEvent) :
    handedTicks (tr ++ es) = handedTicks tr ++ handedTicks es := List.filterMap_append

theorem acceptedTicks_append (tr es : List KisEvent) :
    acceptedTicks (tr ++ es) = acceptedTicks tr ++ acceptedTicks es := by
  rw [acceptedTicks, acceptedItems_append, List.filterMap_append]
  rfl

theorem Ended.mono (h : Ended tr) (es : List KisEvent) : Ended (tr ++ es) :=
  h.imp (List.mem_append_left _) fun ⟨e, he⟩ => ⟨e, List.mem_append_left _ he⟩

/-- What the books of a run become by the events of a step. -/
theorem Books.extend {left' : List StreamItem} {s' : KisPublisher} {es : List KisEvent}
    (h : Books observed py s tr left)
    (settled : settledItems es ++ left' = left ++ (framesOf es).flatMap ownItems)
    (lost : lostItems es ≠ [] → Ended (tr ++ es))
    (published : s'.published = s.published + (acceptedItems es).length)
    (payloads : ∀ p ∈ acceptedItems es, p.1.payload py = .ok p.2)
    (handed : handedTicks es = if observed then acceptedTicks es else []) :
    Books observed py s' (tr ++ es) left' where
  settled := by
    rw [settledItems_append, framesOf_append, List.flatMap_append, List.append_assoc, settled,
      ← List.append_assoc, h.settled]
  lost hne := by
    rw [lostItems_append] at hne
    by_cases hold : lostItems tr = []
    · rw [hold, List.nil_append] at hne
      exact lost hne
    · exact (h.lost hold).mono es
  published := by rw [published, h.published, acceptedItems_append, List.length_append]
  payloads p hp := by
    rw [acceptedItems_append] at hp
    exact (List.mem_append.mp hp).elim (h.payloads p) (payloads p)
  handed := by
    rw [handedTicks_append, h.handed, handed, acceptedTicks_append]
    cases observed with
    | true => rfl
    | false => rfl

/-- A step that only moves the task. -/
theorem Books.moved (h : Books observed py s tr left) (phase : KisPhase) :
    Books observed py { s with phase := phase } tr left :=
  ⟨h.settled, h.lost, h.published, h.payloads, h.handed⟩

/-- What is left when a session has ended is lost. -/
theorem Books.drop (h : Books observed py s tr left) (hended : Ended tr) :
    Books observed py s (tr ++ left.map .lost) [] := by
  induction left generalizing tr with
  | nil => rwa [List.map_nil, List.append_nil]
  | cons item left ih =>
      have hone : Books observed py s (tr ++ [.lost item]) left :=
        h.extend (List.append_nil _).symm (fun _ => hended.mono _) rfl (List.forall_mem_nil _)
          (by cases observed <;> rfl)
      have hrest := ih hone (hended.mono _)
      rwa [List.append_assoc] at hrest

/-- The task ends: what is left of the frame is lost. -/
theorem Books.finish (h : Books observed py s tr left) (phase : KisPhase) {event : KisEvent}
    (hevent : event = .halted ∨ ∃ e, event = .failed e) :
    Books observed py { s with phase := phase } (tr ++ event :: left.map .lost) [] := by
  have hended : Ended (tr ++ [event]) := by
    rcases hevent with rfl | ⟨e, rfl⟩
    · exact .inl (List.mem_append_right _ List.mem_cons_self)
    · exact .inr ⟨e, List.mem_append_right _ List.mem_cons_self⟩
  have hnoted : Books observed py s (tr ++ [event]) left := by
    rcases hevent with rfl | ⟨e, rfl⟩
    · exact h.extend (List.append_nil _).symm (fun _ => hended) rfl (List.forall_mem_nil _)
        (by cases observed <;> rfl)
    · exact h.extend (List.append_nil _).symm (fun _ => hended) rfl (List.forall_mem_nil _)
        (by cases observed <;> rfl)
  have hdropped := (hnoted.drop hended).moved phase
  rwa [List.append_assoc] at hdropped

theorem Books.crash (h : Books observed py s tr left) (e : Exn) :
    Sound observed py (s.crash e left).1 (tr ++ (s.crash e left).2) :=
  ⟨h.finish (.crashed e) (.inr ⟨e, rfl⟩), trivial⟩

/-- The next item gets its message, or it and the rest are lost. -/
theorem Books.next (h : Books observed py s tr left) :
    Sound observed py (s.next py left).1 (tr ++ (s.next py left).2) := by
  cases left with
  | nil =>
      rw [KisPublisher.next, List.append_nil]
      exact ⟨h.moved _, trivial⟩
  | cons item rest =>
      cases hpayload : item.payload py with
      | ok payload =>
          rw [KisPublisher.next, hpayload, List.append_nil]
          exact ⟨h.moved _, hpayload⟩
      | error e =>
          rw [KisPublisher.next, hpayload]
          exact h.crash e

/-- Redis takes the item, and the observer gets it if it is a tick. -/
theorem Books.accept {item : StreamItem} {payload : Text} {rest : List StreamItem}
    (h : Books observed py s tr (item :: rest)) (hpayload : item.payload py = .ok payload) :
    Sound observed py (s.accept observed py item rest).1
      (tr ++ .accepted item payload :: (s.accept observed py item rest).2) := by
  let counted : KisPublisher := { s with published := s.published + 1 }
  have hpayloads : ∀ p ∈ [(item, payload)], p.1.payload py = .ok p.2 :=
    List.forall_mem_singleton.mpr hpayload
  have hquiet (hhanded : [] = if observed then acceptedTicks [.accepted item payload] else []) :
      Sound observed py (counted.next py rest).1
        (tr ++ .accepted item payload :: (counted.next py rest).2) := by
    have hone : Books observed py counted (tr ++ [.accepted item payload]) rest :=
      h.extend (List.append_nil _).symm (fun hne => absurd rfl hne) rfl hpayloads hhanded
    have hnext := hone.next
    rwa [List.append_assoc] at hnext
  cases item with
  | quote q => exact hquiet (by cases observed <;> rfl)
  | tick t =>
      cases observed with
      | false => exact hquiet rfl
      | true =>
          refine ⟨?_, trivial⟩
          exact h.extend (List.append_nil _).symm (fun hne => absurd rfl hne) rfl hpayloads rfl

theorem Sound.halt (h : Sound observed py s tr) :
    Sound observed py s.halt.1 (tr ++ s.halt.2) := by
  have hstopped : Sound observed py { s with phase := .stopped }
      (tr ++ .halted :: s.pending.map .lost) := ⟨h.books.finish .stopped (.inl rfl), trivial⟩
  rw [KisPublisher.halt]
  cases hphase : s.phase with
  | crashed e =>
      refine ⟨?_, h.ready⟩
      exact h.books.extend (List.append_nil _).symm (fun hne => absurd rfl hne) rfl
        (List.forall_mem_nil _) (by cases observed <;> rfl)
  | stopped | subscribingTicks | subscribingQuotes | receiving | finished => exact hstopped
  | publishing item payload rest => exact hstopped
  | observing rest => exact hstopped

/-- Between two frames nothing is left. -/
theorem Sound.endStream (h : Sound observed py s tr) (hpending : s.pending = [])
    (answer : Except Exn Unit) :
    Sound observed py (s.endStream answer).1 (tr ++ (s.endStream answer).2) := by
  have hbooks := h.books
  rw [hpending] at hbooks
  have hfinished : Sound observed py { s with phase := .finished } (tr ++ []) := by
    rw [List.append_nil]
    exact ⟨hbooks.moved _, trivial⟩
  cases answer with
  | ok u => exact hfinished
  | error e =>
      rw [KisPublisher.endStream]
      split
      · exact hfinished
      · exact hbooks.crash e

/-- The items of a frame are its own. -/
theorem handleFrame_items {loadsLimit : Nat} {d : Delivery} {items : List StreamItem}
    {sent : List (List Nat)} (h : handleFrame loadsLimit d = .ok (items, sent)) :
    items = ownItems d := by
  cases hclosed : KisClient.findsClosed loadsLimit d with
  | true =>
      obtain ⟨e, he, -⟩ := KisClient.handleFrame_closed hclosed
      rw [he] at h
      cases h
  | false =>
      obtain ⟨e, he, -⟩ | ⟨sent', hs, -⟩ := KisClient.turn_ends hclosed
      · rw [he] at h
        cases h
      · rw [hs] at h
        cases h
        rfl

theorem Books.receive (h : Books observed py s tr []) (d : Delivery) :
    Sound observed py (s.next py (ownItems d)).1
      (tr ++ .received d :: (s.next py (ownItems d)).2) := by
  have hone : Books observed py s (tr ++ [.received d]) (ownItems d) :=
    h.extend (List.append_nil _).symm (fun hne => absurd rfl hne) rfl (List.forall_mem_nil _)
      (by cases observed <;> rfl)
  have hnext := hone.next
  rwa [List.append_assoc] at hnext

theorem Sound.step {loadsLimit : Nat} {l : KisLabel} {s' : KisPublisher} {es : List KisEvent}
    (h : Sound observed py s tr) (hstep : s.step observed py loadsLimit l = some (s', es)) :
    Sound observed py s' (tr ++ es) := by
  cases l with
  | start =>
      simp only [KisPublisher.step, Option.some.injEq, Prod.mk.injEq] at hstep
      obtain ⟨rfl, rfl⟩ := hstep
      rw [List.append_nil]
      split
      · exact h
      · rename_i hidle
        have hpending : s.pending = [] := by
          rw [isRunning] at hidle
          rw [pending]
          cases hphase : s.phase <;> simp [hphase] at hidle ⊢
        have hbooks := h.books
        rw [hpending] at hbooks
        exact ⟨hbooks.moved _, trivial⟩
  | stop =>
      have hhalt := h.halt
      rwa [Option.some.inj hstep] at hhalt
  | subscribed answer =>
      have hidle (hpending : s.pending = []) : Books observed py s tr [] := by
        rw [← hpending]
        exact h.books
      simp only [KisPublisher.step] at hstep
      split at hstep
      · rename_i hphase
        cases hstep
        rw [List.append_nil]
        exact ⟨(hidle (by rw [pending, hphase])).moved _, trivial⟩
      · rename_i hphase
        cases hstep
        rw [List.append_nil]
        exact ⟨(hidle (by rw [pending, hphase])).moved _, trivial⟩
      · rename_i e hphase
        have hcrash := (hidle (by rw [pending, hphase])).crash e
        rwa [Option.some.inj hstep] at hcrash
      · rename_i e hphase
        have hcrash := (hidle (by rw [pending, hphase])).crash e
        rwa [Option.some.inj hstep] at hcrash
      · cases hstep
  | received d =>
      simp only [KisPublisher.step] at hstep
      split at hstep
      · rename_i hphase
        have hpending : s.pending = [] := by rw [pending, hphase]
        split at hstep
        · rename_i items sent hframe
          have hbooks := h.books
          rw [hpending] at hbooks
          rw [handleFrame_items hframe] at hstep
          cases hstep
          exact hbooks.receive d
        · rename_i e hframe
          have hend := h.endStream hpending (.error e)
          rwa [Option.some.inj hstep] at hend
      · cases hstep
  | streamEnded answer =>
      simp only [KisPublisher.step] at hstep
      split at hstep
      · rename_i hphase
        have hend := h.endStream (by rw [pending, hphase]) answer
        rwa [Option.some.inj hstep] at hend
      · cases hstep
  | published answer =>
      simp only [KisPublisher.step] at hstep
      split at hstep
      · rename_i item payload rest hphase
        obtain ⟨hbooks, hready⟩ := h
        rw [hphase] at hready
        rw [pending, hphase] at hbooks
        cases answer with
        | ok u =>
            cases hstep
            exact hbooks.accept hready
        | error e =>
            have hcrash := hbooks.crash e
            rwa [Option.some.inj hstep] at hcrash
      · cases hstep
  | observed answer =>
      simp only [KisPublisher.step] at hstep
      split at hstep
      · rename_i rest hphase
        have hbooks := h.books
        rw [pending, hphase] at hbooks
        have hnext := hbooks.next
        rwa [Option.some.inj hstep] at hnext
      · cases hstep

theorem initial_sound (observed : Bool) (py : Json.Printing) : Sound observed py {} [] where
  books := ⟨rfl, fun h => absurd rfl h, rfl, List.forall_mem_nil _, by cases observed <;> rfl⟩
  ready := trivial

theorem run_sound {loadsLimit : Nat} {ls : List KisLabel}
    (h : (machine observed py loadsLimit).run {} ls = some (s, tr)) : Sound observed py s tr :=
  Machine.run_invariant (fun _ _ _ _ _ hsound hstep => hsound.step hstep)
    (initial_sound observed py) h

end

/-! ### What every run keeps -/

/-- The messages on the channel of the ticks. -/
def tickMessages (items : List (StreamItem × Text)) : List Text :=
  items.filterMap fun p => p.1.tick?.map fun _ => p.2

theorem ticks_published {py : Worker.Interpreter} {items : List (StreamItem × Text)}
    (h : ∀ p ∈ items, p.1.payload py.toPrinting = .ok p.2) {msgs : List Worker.Message}
    (hmsgs : msgs.map Worker.Message.raw = tickMessages items) :
    List.Forall₂ (fun tick msg => tickPayload py tick = .ok msg.raw)
      (items.filterMap fun p => p.1.tick?) msgs := by
  induction items generalizing msgs with
  | nil =>
      rw [List.map_eq_nil_iff.mp hmsgs]
      exact .nil
  | cons p items ih =>
      obtain ⟨hp, hitems⟩ := List.forall_mem_cons.mp h
      obtain ⟨item, payload⟩ := p
      cases item with
      | quote q => exact ih hitems hmsgs
      | tick t =>
          obtain ⟨msg, rest, rfl, hmsg, hrest⟩ := List.map_eq_cons_iff.mp hmsgs
          exact .cons (hp.trans (congrArg _ hmsg.symm)) (ih hitems hrest)

theorem settled_of_accepted {item : StreamItem} {payload : Text} {tr : List KisEvent}
    (h : (item, payload) ∈ acceptedItems tr) : item ∈ settledItems tr := by
  obtain ⟨event, hevent, hsome⟩ := List.mem_filterMap.mp h
  cases event with
  | accepted item' payload' =>
      cases hsome
      exact List.mem_filterMap.mpr ⟨_, hevent, rfl⟩
  | received d => cases hsome
  | handed tick => cases hsome
  | lost left => cases hsome
  | failed e => cases hsome
  | halted => cases hsome
  | raised e => cases hsome

theorem parsed_of_owned {d : Delivery} {tick : Tick} (h : .tick tick ∈ ownItems d) :
    Parsed tick := by
  rw [KisClient.ownItems] at h
  split at h
  · split at h
    · split at h
      · obtain ⟨quote, -, hquote⟩ := List.mem_map.mp h
        cases hquote
      · cases h
    · obtain ⟨t, ht, heq⟩ := List.mem_map.mp h
      cases heq
      rw [← parsedTicks_frameRecords] at ht
      exact parsedTicks_parsed ht
  · cases h

/-- A tick that was published is one that the parser made. -/
theorem Books.parsed {observed : Bool} {py : Json.Printing} {s : KisPublisher}
    {tr : List KisEvent} {left : List StreamItem} (h : Books observed py s tr left) :
    ∀ tick ∈ acceptedTicks tr, Parsed tick := by
  intro tick htick
  obtain ⟨⟨item, payload⟩, hitem, hsome⟩ := List.mem_filterMap.mp htick
  cases item with
  | quote q => cases hsome
  | tick t =>
      obtain rfl : t = tick := Option.some.inj hsome
      have howed : .tick t ∈ (framesOf tr).flatMap ownItems := by
        rw [← h.settled]
        exact List.mem_append_left _ (settled_of_accepted hitem)
      obtain ⟨d, -, hd⟩ := List.mem_flatMap.mp howed
      exact parsed_of_owned hd

/-- The observer is handed, in order, the ticks whose messages Redis took, and the worker reads
them there, up to the price, which it reads as a decimal of the same float. -/
theorem session_feeds {py : Worker.Interpreter} (hloads : 1 ≤ py.loadsLimit) {ls : List KisLabel}
    {s : KisPublisher} {tr : List KisEvent}
    (h : (machine true py.toPrinting py.loadsLimit).run {} ls = some (s, tr))
    {msgs : List Worker.Message}
    (hmsgs : msgs.map Worker.Message.raw = tickMessages (acceptedItems tr)) :
    msgs.flatMap (heard py) = (handedTicks tr).filterMap arrived := by
  have hbooks := (run_sound h).books
  rw [hbooks.handed, if_pos rfl]
  exact heard_published hloads (ticks_published hbooks.payloads hmsgs) hbooks.parsed

/-! ### A trade of Samsung -/

def samsungTrade : Delivery := KisClient.textDelivery
  "0|H0STCNT0|1|005930^120000^79000^^^^^^^^^^10^^^^^^^^^1^^^^^^^^^^^^^^^^^^^^^^^^^" (by decide)

/-- The trade is published; while the observer has it, the publisher is stopped. -/
def samsungSession : List KisLabel :=
  [.start, .subscribed (.ok ()), .subscribed (.ok ()), .received samsungTrade, .published (.ok ()),
    .stop]

theorem samsungSession_feeds : ∃ s tr,
    (machine true Worker.samplePython.toPrinting 1000).run {} samsungSession = some (s, tr) ∧
      ((tickMessages (acceptedItems tr)).map Worker.Message.str).flatMap
          (heard Worker.samplePython) = (handedTicks tr).filterMap arrived ∧
        (handedTicks tr).length = 1 := by
  have hrun : ((machine true Worker.samplePython.toPrinting 1000).run {} samsungSession).map
      (fun out => (handedTicks out.2).length) = some 1 := by decide +kernel
  obtain ⟨⟨s, tr⟩, hr, hlength⟩ := Option.map_eq_some_iff.mp hrun
  refine ⟨s, tr, hr, session_feeds (by decide) hr ?_, hlength⟩
  rw [List.map_map]
  exact List.map_id _

end KisPublisher
end NexusBackend
