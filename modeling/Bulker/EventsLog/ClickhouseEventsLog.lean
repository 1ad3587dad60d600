import Mathlib.Data.List.Infix

/-!
# The ClickHouse events log

`eventslog/ch_events_log.go`: `PostAsync` appends an event to `eventsBuffer` under the mutex; the one ticker
goroutine's `flush` takes the buffer under the mutex, then prepares, fills and sends a batch outside it; `Close` hands
the goroutine the close signal, which it can only take between two flushes, and does not flush. Each critical
section and each driver round trip is one atomic step, and a run is any interleaving of them.

* `step_cases`: what one step can do;
* `step_pending`: one step appends to the sent batches, the batch in flight and the buffer, read in that order, at most
  the event it posts, and exactly that when the driver succeeds;
* `step_tick`: a tick takes the whole buffer into flight;
* `run_sent_of_closed`: after `Close` no batch is ever sent;
* `events_log_delivery`: so along every run the events sent, in flight and buffered are the posted ones in posting
  order, with none lost when every driver call succeeds; the buffer holds the events posted since the last tick, and
  those posted before a tick whose flush completed are sent; the buffer at `Close` is never sent;
* `close_drops_buffer`: an event posted before `Close` is never sent;
* `ticker_drains`: while the goroutine runs, at most three steps of it with a working driver send everything in flight
  or buffered.
-/

namespace Bulker.EventsLog

variable {E : Type}

/-- What the driver answers during one flush: `PrepareBatch`, each `Append` in turn (the ones not listed succeed),
and `Send`. -/
structure FlushOutcome where
  prepared : Bool
  appended : List Bool
  sent : Bool

/-- The outcome in which every driver call succeeds. -/
def FlushOutcome.ok : FlushOutcome := ⟨true, [], true⟩

/-- The events of the taken buffer whose `Append` succeeded, in order. -/
def appendAll : List E → List Bool → List E
  | [], _ => []
  | e :: es, [] => e :: appendAll es []
  | e :: es, ok :: oks => if ok then e :: appendAll es oks else appendAll es oks

/-- An atomic step of the events log. -/
inductive Action (E : Type) where
  /-- `PostAsync(event)`; `none` is a nil event. -/
  | postAsync (event : Option E)
  /-- The ticker fires and `flush` takes the buffer under the mutex. -/
  | tick
  /-- The rest of `flush`: `PrepareBatch`, the `Append`s and `Send`, outside the mutex. -/
  | flushSend (outcome : FlushOutcome)
  /-- `Close`, once the goroutine takes the close signal. -/
  | close

/-- `ClickhouseEventsLog` with the goroutine's state: the buffer, the copy a flush in progress took, the batches the
driver accepted, in order, and whether the goroutine has stopped. -/
structure ClickhouseEventsLog (E : Type) where
  eventsBuffer : List E
  flushing : Option (List E)
  sent : List (List E)
  closed : Bool

def ClickhouseEventsLog.init : ClickhouseEventsLog E := ⟨[], none, [], false⟩

/-- One atomic step; `none` when it cannot happen: the goroutine flushes and takes the close signal only when it is
running and not inside a flush, and sends only the copy it took. -/
def ClickhouseEventsLog.step (s : ClickhouseEventsLog E) : Action E → Option (ClickhouseEventsLog E)
  | .postAsync none => some s
  | .postAsync (some e) => some { s with eventsBuffer := s.eventsBuffer ++ [e] }
  | .tick =>
    if s.closed || s.flushing.isSome then none
    else if s.eventsBuffer.length = 0 then some s
    else some { s with flushing := some s.eventsBuffer, eventsBuffer := [] }
  | .flushSend o =>
    match s.flushing with
    | none => none
    | some bufferCopy =>
      some { s with flushing := none,
                    sent := if o.prepared && o.sent then s.sent ++ [appendAll bufferCopy o.appended] else s.sent }
  | .close => if s.closed || s.flushing.isSome then none else some { s with closed := true }

def ClickhouseEventsLog.run : ClickhouseEventsLog E → List (Action E) → Option (ClickhouseEventsLog E)
  | s, [] => some s
  | s, a :: as => (s.step a).bind fun s' => s'.run as

/-- The events a step posts. -/
def Action.posted : Action E → List E
  | .postAsync (some e) => [e]
  | _ => []

/-- The step involves no failing driver call. -/
def Action.Succeeds : Action E → Prop
  | .flushSend o => o = FlushOutcome.ok
  | _ => True

/-- The events posted along a run, in posting order. -/
def posted (as : List (Action E)) : List E := (as.map Action.posted).flatten

/-- The events sent, in flight and buffered, in that order. -/
def ClickhouseEventsLog.pending (s : ClickhouseEventsLog E) : List E :=
  s.sent.flatten ++ s.flushing.getD [] ++ s.eventsBuffer

/-! ## One step -/

theorem appendAll_sublist : ∀ (es : List E) (oks : List Bool), (appendAll es oks).Sublist es
  | [], _ => .slnil
  | _ :: es, [] => (appendAll_sublist es []).cons₂ _
  | _ :: es, ok :: oks => by
    unfold appendAll
    split_ifs
    · exact (appendAll_sublist es oks).cons₂ _
    · exact (appendAll_sublist es oks).cons _

@[simp] theorem appendAll_nil : ∀ es : List E, appendAll es [] = es
  | [] => rfl
  | e :: es => congrArg (e :: ·) (appendAll_nil es)

/-- **What one step can do**: post, take the buffer (when it is not empty), hand the taken copy to the driver, or
stop the goroutine; the goroutine acts only while it runs and is not inside a flush. -/
theorem step_cases {s s' : ClickhouseEventsLog E} {a : Action E} (h : s.step a = some s') :
    (∃ e, a = .postAsync e ∧ s' = { s with eventsBuffer := s.eventsBuffer ++ e.toList }) ∨
    (a = .tick ∧ s.closed = false ∧ s.flushing = none ∧
      (s.eventsBuffer = [] ∧ s' = s ∨ s' = { s with flushing := some s.eventsBuffer, eventsBuffer := [] })) ∨
    (∃ o b, a = .flushSend o ∧ s.flushing = some b ∧
      s' = { s with flushing := none,
                    sent := if o.prepared && o.sent then s.sent ++ [appendAll b o.appended] else s.sent }) ∨
    (a = .close ∧ s.closed = false ∧ s.flushing = none ∧ s' = { s with closed := true }) := by
  cases a with
  | postAsync e =>
    refine .inl ⟨e, rfl, ?_⟩
    cases e <;> simp only [ClickhouseEventsLog.step, Option.some.injEq] at h <;> subst h
    · simp
    · rfl
  | tick =>
    simp only [ClickhouseEventsLog.step] at h
    split_ifs at h with hc hb <;> cases h <;> simp at hc
    · exact .inr (.inl ⟨rfl, hc.1, hc.2, .inl ⟨List.length_eq_zero.1 hb, rfl⟩⟩)
    · exact .inr (.inl ⟨rfl, hc.1, hc.2, .inr rfl⟩)
  | flushSend o =>
    simp only [ClickhouseEventsLog.step] at h
    split at h
    · cases h
    · next b hb => cases h; exact .inr (.inr (.inl ⟨o, b, rfl, hb, rfl⟩))
  | close =>
    simp only [ClickhouseEventsLog.step] at h
    split_ifs at h with hc
    cases h; simp at hc
    exact .inr (.inr (.inr ⟨rfl, hc.1, hc.2, rfl⟩))

/-- **One step** appends to the pending events at most what it posts, and exactly that when the driver succeeds. -/
theorem step_pending {s s' : ClickhouseEventsLog E} {a : Action E} (h : s.step a = some s') :
    s'.pending.Sublist (s.pending ++ a.posted) ∧ (a.Succeeds → s'.pending = s.pending ++ a.posted) := by
  rcases step_cases h with ⟨e, rfl, rfl⟩ | ⟨rfl, -, hf, ⟨-, rfl⟩ | rfl⟩ | ⟨o, b, rfl, hb, rfl⟩ | ⟨rfl, -, -, rfl⟩
  · cases e <;> simp [ClickhouseEventsLog.pending, Action.posted]
  · simp [Action.posted]
  · simp [ClickhouseEventsLog.pending, Action.posted, hf]
  · simp only [ClickhouseEventsLog.pending, hb, Option.getD_some, Option.getD_none, Action.posted,
      List.append_nil]
    refine ⟨?_, fun ho => ?_⟩
    · split_ifs
      · simpa [List.flatten_append, List.append_assoc] using
          ((appendAll_sublist b o.appended).append_right s.eventsBuffer).append_left s.sent.flatten
      · simp
    · simp only [Action.Succeeds] at ho; subst ho
      simp [FlushOutcome.ok]
  · simp [ClickhouseEventsLog.pending, Action.posted]

/-- Once the goroutine has stopped, no step sends a batch, and it stays stopped. -/
theorem step_of_closed {s s' : ClickhouseEventsLog E} {a : Action E} (h : s.step a = some s') (hc : s.closed = true)
    (hf : s.flushing = none) : s'.sent = s.sent ∧ s'.closed = true ∧ s'.flushing = none := by
  rcases step_cases h with ⟨e, rfl, rfl⟩ | ⟨rfl, hc', -⟩ | ⟨o, b, rfl, hb, rfl⟩ | ⟨rfl, hc', -⟩
  · exact ⟨rfl, hc, hf⟩
  · cases hc.symm.trans hc'
  · cases hf.symm.trans hb
  · cases hc.symm.trans hc'

/-- **A tick takes the whole buffer**: it leaves the buffer empty with its events in flight, and sends nothing. -/
theorem step_tick {s s' : ClickhouseEventsLog E} (h : s.step .tick = some s') :
    s.flushing = none ∧ s'.sent = s.sent ∧ s'.eventsBuffer = [] ∧ s'.flushing.getD [] = s.eventsBuffer := by
  rcases step_cases h with ⟨e, he, -⟩ | ⟨-, -, hf, ⟨hb, rfl⟩ | rfl⟩ | ⟨o, b, he, -⟩ | ⟨he, -⟩
  · cases he
  · exact ⟨hf, rfl, hb, by rw [hf, hb]; rfl⟩
  · exact ⟨hf, rfl, rfl, rfl⟩
  · cases he
  · cases he

/-- A step other than a tick appends to the buffer what it posts, and nothing else. -/
theorem step_buffer {s s' : ClickhouseEventsLog E} {a : Action E} (ha : a ≠ .tick) (h : s.step a = some s') :
    s'.eventsBuffer = s.eventsBuffer ++ a.posted := by
  rcases step_cases h with ⟨e, rfl, rfl⟩ | ⟨rfl, -⟩ | ⟨o, b, rfl, -, rfl⟩ | ⟨rfl, -, -, rfl⟩
  · cases e <;> rfl
  · exact absurd rfl ha
  · simp [Action.posted]
  · simp [Action.posted]

/-- What was sent stays sent, in order. -/
theorem step_sent {s s' : ClickhouseEventsLog E} {a : Action E} (h : s.step a = some s') :
    s.sent.flatten <+: s'.sent.flatten := by
  rcases step_cases h with ⟨e, rfl, rfl⟩ | ⟨rfl, -, -, ⟨-, rfl⟩ | rfl⟩ | ⟨o, b, rfl, -, rfl⟩ | ⟨rfl, -, -, rfl⟩
  · exact List.prefix_refl _
  · exact List.prefix_refl _
  · exact List.prefix_refl _
  · dsimp only; split <;> simp
  · exact List.prefix_refl _

/-- With a working driver, what was sent followed by what is in flight only grows. -/
theorem step_inFlight {s s' : ClickhouseEventsLog E} {a : Action E} (ha : a.Succeeds) (h : s.step a = some s') :
    s.sent.flatten ++ s.flushing.getD [] <+: s'.sent.flatten ++ s'.flushing.getD [] := by
  rcases step_cases h with ⟨e, rfl, rfl⟩ | ⟨rfl, -, hf, ⟨-, rfl⟩ | rfl⟩ | ⟨o, b, rfl, hb, rfl⟩ | ⟨rfl, -, -, rfl⟩
  · exact List.prefix_refl _
  · exact List.prefix_refl _
  · simp [hf]
  · simp only [Action.Succeeds] at ha; subst ha; simp [hb, FlushOutcome.ok]
  · exact List.prefix_refl _

/-- A flush whose driver calls all succeed sends what is in flight. -/
theorem step_flushSend_sent {s s' : ClickhouseEventsLog E} (h : s.step (.flushSend .ok) = some s') :
    s'.sent.flatten = s.sent.flatten ++ s.flushing.getD [] := by
  rcases step_cases h with ⟨e, he, -⟩ | ⟨he, -⟩ | ⟨o, b, he, hb, rfl⟩ | ⟨he, -⟩
  · cases he
  · cases he
  · cases he; simp [hb, FlushOutcome.ok]
  · cases he

/-! ## Runs -/

theorem run_append (as₁ as₂ : List (Action E)) (s : ClickhouseEventsLog E) :
    s.run (as₁ ++ as₂) = (s.run as₁).bind fun s₁ => s₁.run as₂ := by
  induction as₁ generalizing s with
  | nil => rfl
  | cons a as₁ ih => rw [List.cons_append]; simp only [ClickhouseEventsLog.run, ih, Option.bind_assoc]

theorem run_append_some {as₁ as₂ : List (Action E)} {s s' : ClickhouseEventsLog E} (h : s.run (as₁ ++ as₂) = some s') :
    ∃ s₁, s.run as₁ = some s₁ ∧ s₁.run as₂ = some s' :=
  Option.bind_eq_some.1 ((run_append as₁ as₂ s).symm.trans h)

/-- A relation that holds of equal states, composes, and relates the ends of every allowed step, relates the ends of
every run of allowed steps. -/
theorem run_rel {R : ClickhouseEventsLog E → ClickhouseEventsLog E → Prop} {Q : Action E → Prop}
    (hrefl : ∀ s, R s s) (htrans : ∀ {s₁ s₂ s₃}, R s₁ s₂ → R s₂ s₃ → R s₁ s₃)
    (hstep : ∀ {s s' a}, Q a → s.step a = some s' → R s s') :
    ∀ (as : List (Action E)) {s s' : ClickhouseEventsLog E}, (∀ a ∈ as, Q a) → s.run as = some s' → R s s'
  | [], s, _, _, h => by cases h; exact hrefl s
  | a :: as, _, _, hq, h => by
    obtain ⟨s₁, h₁, h⟩ := Option.bind_eq_some.1 h
    exact htrans (hstep (hq a (List.mem_cons_self _ _)) h₁)
      (run_rel hrefl htrans hstep as (fun b hb => hq b (List.mem_cons_of_mem _ hb)) h)

/-- Without a tick, the buffer only gains the events posted. -/
theorem run_buffer (as : List (Action E)) : ∀ {s s' : ClickhouseEventsLog E}, (∀ a ∈ as, a ≠ .tick) →
    s.run as = some s' → s'.eventsBuffer = s.eventsBuffer ++ posted as := by
  induction as with
  | nil => intro s s' _ h; cases h; simp [posted]
  | cons a as ih =>
    intro s s' ha h
    obtain ⟨s₁, h₁, h⟩ := Option.bind_eq_some.1 h
    rw [ih (fun b hb => ha b (List.mem_cons_of_mem _ hb)) h, step_buffer (ha a (List.mem_cons_self _ _)) h₁]
    simp [posted]

theorem run_pending (as : List (Action E)) : ∀ {s s' : ClickhouseEventsLog E}, s.run as = some s' →
    s'.pending.Sublist (s.pending ++ posted as) ∧ ((∀ a ∈ as, a.Succeeds) → s'.pending = s.pending ++ posted as) := by
  induction as with
  | nil => intro s s' h; cases h; simp [posted]
  | cons a as ih =>
    intro s s' h
    obtain ⟨s₁, h₁, h⟩ := Option.bind_eq_some.1 h
    obtain ⟨hsub₁, hok₁⟩ := step_pending h₁
    obtain ⟨hsub, hok⟩ := ih h
    have hp : posted (a :: as) = a.posted ++ posted as := by simp [posted]
    refine ⟨hp ▸ hsub.trans (by simpa using hsub₁.append_right (posted as)), fun hs => ?_⟩
    rw [hok fun b hb => hs b (List.mem_cons_of_mem _ hb), hok₁ (hs a (List.mem_cons_self _ _)), hp,
      List.append_assoc]

/-- **After `Close`** no batch is ever sent. -/
theorem run_sent_of_closed (as : List (Action E)) :
    ∀ {s s' : ClickhouseEventsLog E}, s.closed = true → s.flushing = none → s.run as = some s' → s'.sent = s.sent := by
  induction as with
  | nil => intro s s' _ _ h; cases h; rfl
  | cons a as ih =>
    intro s s' hc hf h
    obtain ⟨s₁, h₁, h⟩ := Option.bind_eq_some.1 h
    obtain ⟨e, hc₁, hf₁⟩ := step_of_closed h₁ hc hf
    exact (ih hc₁ hf₁ h).trans e

/-- A stopped goroutine is not inside a flush: `Close` waits for it to leave one. -/
def ClickhouseEventsLog.Quiet (s : ClickhouseEventsLog E) : Prop := s.closed = true → s.flushing = none

theorem step_quiet {s s' : ClickhouseEventsLog E} {a : Action E} (h : s.step a = some s') (hq : s.Quiet) :
    s'.Quiet := by
  rcases step_cases h with ⟨e, rfl, rfl⟩ | ⟨rfl, hc, -, ⟨-, rfl⟩ | rfl⟩ | ⟨o, b, rfl, -, rfl⟩ | ⟨rfl, -, hf, rfl⟩
  · exact hq
  · exact hq
  · exact fun hc' => by cases hc.symm.trans hc'
  · exact fun _ => rfl
  · exact fun _ => hf

theorem run_quiet (as : List (Action E)) :
    ∀ {s s' : ClickhouseEventsLog E}, s.Quiet → s.run as = some s' → s'.Quiet := by
  induction as with
  | nil => intro s s' hq h; cases h; exact hq
  | cons a as ih =>
    intro s s' hq h
    obtain ⟨s₁, h₁, h⟩ := Option.bind_eq_some.1 h
    exact ih (step_quiet h₁ hq) h

/-! ## Draining -/

/-- A flush whose driver calls all succeed sends the whole copy it took. -/
theorem step_flushSend_ok {s : ClickhouseEventsLog E} {b : List E} (hb : s.flushing = some b) :
    s.step (.flushSend .ok) = some { s with flushing := none, sent := s.sent ++ [b] } := by
  simp [ClickhouseEventsLog.step, hb, FlushOutcome.ok]

/-- A running goroutine outside a flush sends the whole buffer with at most one tick and one flush. -/
theorem drain_idle {s : ClickhouseEventsLog E} (hc : s.closed = false) (hf : s.flushing = none) :
    ∃ as : List (Action E), as.length ≤ 2 ∧ (∀ a ∈ as, a = .tick ∨ a = .flushSend .ok) ∧
      ∃ s', s.run as = some s' ∧ s'.flushing = none ∧ s'.eventsBuffer = [] ∧ s'.closed = false ∧
        s'.sent.flatten = s.pending := by
  by_cases hb : s.eventsBuffer = []
  · exact ⟨[], by simp, by simp, s, rfl, hf, hb, hc, by simp [ClickhouseEventsLog.pending, hf, hb]⟩
  · refine ⟨[.tick, .flushSend .ok], by simp, by simp,
      { s with eventsBuffer := [], sent := s.sent ++ [s.eventsBuffer] }, ?_, hf, rfl, hc,
      by simp [ClickhouseEventsLog.pending, hf]⟩
    simp [ClickhouseEventsLog.run, ClickhouseEventsLog.step, hc, hf, hb, FlushOutcome.ok]

/-- **While the goroutine runs, the ticker can drain the log**: from any state, at most three steps of the goroutine
whose driver calls all succeed (the end of the flush in progress, a tick and its flush) send every event in flight
or in the buffer, in order, and leave the log running and empty. -/
theorem ticker_drains (s : ClickhouseEventsLog E) (hc : s.closed = false) :
    ∃ as : List (Action E), as.length ≤ 3 ∧ (∀ a ∈ as, a = .tick ∨ a = .flushSend .ok) ∧
      ∃ s', s.run as = some s' ∧ s'.flushing = none ∧ s'.eventsBuffer = [] ∧ s'.closed = false ∧
        s'.sent.flatten = s.pending := by
  cases hf : s.flushing with
  | none =>
    obtain ⟨as, hl, ha, h⟩ := drain_idle hc hf
    exact ⟨as, by omega, ha, h⟩
  | some b =>
    obtain ⟨as, hl, ha, s', h, hf', hb', hc', hs'⟩ :=
      drain_idle (s := { s with flushing := none, sent := s.sent ++ [b] }) hc rfl
    refine ⟨.flushSend .ok :: as, Nat.succ_le_succ hl, List.forall_mem_cons.2 ⟨.inr rfl, ha⟩, s', ?_, hf', hb', hc',
      ?_⟩
    · simp only [ClickhouseEventsLog.run, step_flushSend_ok hf, Option.some_bind, h]
    · simp [hs', ClickhouseEventsLog.pending, hf]

theorem ticker_drains_in_flight :
    ((⟨[3], some [1, 2], [[0]], false⟩ : ClickhouseEventsLog Nat).closed = false) ∧
      ∃ as : List (Action Nat), as.length ≤ 3 ∧ (∀ a ∈ as, a = .tick ∨ a = .flushSend .ok) ∧
        ∃ s', (⟨[3], some [1, 2], [[0]], false⟩ : ClickhouseEventsLog Nat).run as = some s' ∧
          s'.flushing = none ∧ s'.eventsBuffer = [] ∧ s'.closed = false ∧
          s'.sent.flatten = (⟨[3], some [1, 2], [[0]], false⟩ : ClickhouseEventsLog Nat).pending :=
  ⟨rfl, ticker_drains _ rfl⟩

/-- What every run from a fresh log guarantees at the state `s` it reaches by the steps `as`. -/
structure Delivery (as : List (Action E)) (s : ClickhouseEventsLog E) : Prop where
  /-- The events sent, in flight and buffered, in that order, are posted events in posting order, none twice. -/
  ordered : s.pending.Sublist (posted as)
  /-- With a working driver they are exactly the posted events. -/
  complete : (∀ a ∈ as, a.Succeeds) → s.pending = posted as
  /-- A tick takes the whole buffer. -/
  tick_takes_buffer : ∀ s', s.step .tick = some s' → s'.eventsBuffer = [] ∧ s'.flushing.getD [] = s.eventsBuffer
  /-- The buffer holds exactly the events posted since the last tick, or since the start when there was none. -/
  buffer_since_tick : (Action.tick ∉ as → s.eventsBuffer = posted as) ∧
    ∀ pre rest, as = pre ++ .tick :: rest → Action.tick ∉ rest → s.eventsBuffer = posted rest
  /-- With a working driver, the events posted before a tick whose flush has completed have been sent, in order,
  before any other. -/
  flushed_sent : (∀ a ∈ as, a.Succeeds) → ∀ pre mid post o,
    as = pre ++ .tick :: (mid ++ .flushSend o :: post) → posted pre <+: s.sent.flatten
  /-- Once the goroutine has stopped, no batch is sent again. -/
  closed_final : s.closed = true → ∀ as' s', s.run as' = some s' → s'.sent = s.sent

theorem not_tick_of_not_mem {as : List (Action E)} (h : Action.tick ∉ as) : ∀ a ∈ as, a ≠ .tick :=
  fun _ ha e => h (e ▸ ha)

/-- With a working driver, after the steps `pre` and a tick, what is sent and in flight is what `pre` posted. -/
theorem inFlight_after_tick {pre : List (Action E)} {s₀ s₁ : ClickhouseEventsLog E}
    (hs : ∀ a ∈ pre, a.Succeeds) (h₀ : ClickhouseEventsLog.init.run pre = some s₀) (h₁ : s₀.step .tick = some s₁) :
    s₁.sent.flatten ++ s₁.flushing.getD [] = posted pre := by
  obtain ⟨hf, hsent, -, hfl⟩ := step_tick h₁
  have hpend := (run_pending pre h₀).2 hs
  simp only [ClickhouseEventsLog.pending, ClickhouseEventsLog.init, hf, Option.getD_none, List.append_nil,
    List.flatten_nil, List.nil_append] at hpend
  rw [hsent, hfl, hpend]

/-- **Delivery of the events log.** Along every interleaving from a fresh log, the batches sent, the batch in flight
and the buffer, read in that order, are posted events in posting order, none twice, and exactly the posted events
when every driver call succeeds. A tick takes the whole buffer, so the buffer holds the events posted since the last
tick, and with a working driver every event posted before a tick whose flush has completed is sent. Once `Close` has
returned, no batch is ever sent again, so the events posted since the last tick are never sent. -/
theorem events_log_delivery {as : List (Action E)} {s : ClickhouseEventsLog E}
    (h : ClickhouseEventsLog.init.run as = some s) : Delivery as s := by
  obtain ⟨hsub, hok⟩ := run_pending as h
  have hf := run_quiet as (fun hc => by cases hc) h
  refine ⟨by simpa [ClickhouseEventsLog.pending, ClickhouseEventsLog.init] using hsub,
    fun hs => by simpa [ClickhouseEventsLog.pending, ClickhouseEventsLog.init] using hok hs,
    fun s' h' => (step_tick h').2.2, ⟨fun hr => ?_, fun pre rest e hr => ?_⟩, fun hs pre mid post o e => ?_,
    fun hc as' s' h' => run_sent_of_closed as' hc (hf hc) h'⟩
  · simpa [ClickhouseEventsLog.init] using run_buffer as (not_tick_of_not_mem hr) h
  · subst e
    obtain ⟨s₀, -, h⟩ := run_append_some h
    obtain ⟨s₁, h₁, h⟩ := Option.bind_eq_some.1 h
    rw [run_buffer rest (not_tick_of_not_mem hr) h, (step_tick h₁).2.2.1, List.nil_append]
  · subst e
    have hs' : ∀ a ∈ pre, a.Succeeds := fun a ha => hs a (List.mem_append_left _ ha)
    have ho : o = .ok := hs (.flushSend o) (by simp)
    subst ho
    obtain ⟨s₀, h₀, h⟩ := run_append_some h
    obtain ⟨s₁, h₁, h⟩ := Option.bind_eq_some.1 h
    obtain ⟨s₂, h₂, h⟩ := run_append_some h
    obtain ⟨s₃, h₃, h⟩ := Option.bind_eq_some.1 h
    -- what is sent and in flight only grows along `mid`, the flush sends what is in flight, and sent stays sent
    have hmid : s₁.sent.flatten ++ s₁.flushing.getD [] <+: s₂.sent.flatten ++ s₂.flushing.getD [] :=
      run_rel (R := fun s s' => s.sent.flatten ++ s.flushing.getD [] <+: s'.sent.flatten ++ s'.flushing.getD [])
        (fun _ => List.prefix_refl _) List.IsPrefix.trans step_inFlight mid
        (fun a ha => hs a (by simp [ha])) h₂
    have hpost : s₃.sent.flatten <+: s.sent.flatten :=
      run_rel (R := fun s s' => s.sent.flatten <+: s'.sent.flatten) (Q := fun _ => True) (fun _ => List.prefix_refl _)
        List.IsPrefix.trans (fun _ => step_sent) post
        (fun _ _ => trivial) h
    rw [inFlight_after_tick hs' h₀ h₁, ← step_flushSend_sent h₃] at hmid
    exact hmid.trans hpost

theorem events_log_delivery_flushed :
    ClickhouseEventsLog.init.run [.postAsync (some 1), .tick, .flushSend .ok, .postAsync (some 2), .close] =
        some ⟨[2], none, [[1]], true⟩ ∧
      Delivery [.postAsync (some 1), .tick, .flushSend .ok, .postAsync (some 2), .close]
        (⟨[2], none, [[1]], true⟩ : ClickhouseEventsLog Nat) :=
  ⟨rfl, events_log_delivery rfl⟩

/-- An event posted before `Close`, with no tick in between, is never sent: it stays in the buffer after `Close` has
returned, whatever happens next. -/
theorem close_drops_buffer :
    ClickhouseEventsLog.init.run [.postAsync (some 0), .close] = some ⟨[0], none, [], true⟩ ∧
      ∀ as s, (⟨[0], none, [], true⟩ : ClickhouseEventsLog Nat).run as = some s → s.sent = [] :=
  ⟨rfl, fun as _ h => run_sent_of_closed as rfl rfl h⟩

end Bulker.EventsLog
