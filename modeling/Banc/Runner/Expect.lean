import Banc.Lib.Timeout
import Mathlib.Data.List.Basic

/-!
# Waiting for an event, and for none

The helpers of `banc-host/src/expect.rs`. `expect_matching` waits until a predicate
holds of an event, `expect_quiet` asserts that it holds of none for a while. Each is a
loop over the events of a source under a timeout, with a body of its own.

An event source is one whose `next` may be given up while it is pending and loses
nothing by it: the laws of `EventSource` say which events are in the source before and
after each poll. What is in it at an instant includes what will have got there by
then, so that a source may be any schedule of arrivals, one without end too, and may
close or not (`receiver`, for the receivers of `tokio::sync::mpsc`).

The predicate may have a state. It is called on the events the source hands over,
which are therefore those that are missing from the source afterwards, and no others:
up to the first of which it holds (`upToMatch`).
-/

namespace Banc

open Timeout

/-! ## Event sources -/

/-- An event source: `S` what there is of it between two polls, `F` what a future
that `next` returned has to itself, and goes with it when it is dropped. -/
structure EventSource (S F T : Type) where
  /-- `next`. -/
  next : S → F
  /-- Poll the future at an instant. It is ready with `none` where the source is
  closed. -/
  poll : ℕ → S → F → Poll (Option T) × S × F
  /-- The events that are in the source, or get there by an instant, in order. -/
  events : ℕ → S → List T
  /-- An event that is handed over is the first. -/
  event : ∀ {now s f x s' f'}, poll now s f = (.ready (some x), s', f') →
    ∀ k, events (now + k) s = x :: events (now + k) s'
  closed : ∀ {now s f s' f'}, poll now s f = (.ready none, s', f') →
    ∀ k, events (now + k) s' = events (now + k) s
  /-- **`next` is cancel-safe**: a future that is pending keeps nothing that is not in
  the source when it is dropped. -/
  cancelSafe : ∀ {now s f s' f'}, poll now s f = (.pending, s', f') →
    ∀ k, events (now + k) s' = events (now + k) s

theorem EventSource.event_now {S F T : Type} (src : EventSource S F T) {now : ℕ} {s s' : S}
    {f f' : F} {x : T} (h : src.poll now s f = (.ready (some x), s', f')) :
    src.events now s = x :: src.events now s' :=
  src.event h 0

/-- What has got to the source is handed over before it is pending, or closed. -/
def EventSource.Prompt {S F T : Type} (src : EventSource S F T) : Prop :=
  ∀ now s f, (src.poll now s f).1.value.join = none → src.events now s = []

/-- When what is sent to a channel arrives, and when its last sender is dropped, if
ever. -/
structure Schedule (T : Type) where
  sent : ℕ → List T
  closes : Option ℕ

namespace Schedule

variable {T : Type} (c : Schedule T)

/-- The channel is closed. -/
def ClosedBy (now : ℕ) : Prop := ∃ t ∈ c.closes, t ≤ now

instance (now : ℕ) : Decidable (c.ClosedBy now) :=
  decidable_of_iff (c.closes.any (fun t => decide (t ≤ now)) = true) (by
    simp only [Option.any_eq_true, decide_eq_true_eq, ClosedBy, Option.mem_def])

/-- What has arrived: nothing does when the channel is closed. -/
def arrived (now : ℕ) : List T :=
  ((List.range (now + 1)).filter (fun t => ¬ c.ClosedBy t)).flatMap c.sent

/-- What has arrived stays, with more behind it. -/
theorem arrived_add (now k : ℕ) : ∃ later, c.arrived (now + k) = c.arrived now ++ later := by
  unfold arrived
  rw [Nat.add_right_comm, List.range_add, List.filter_append, List.flatMap_append]
  exact ⟨_, rfl⟩

end Schedule

/-- A receiver, bounded or not, on which `next` is `recv`. It is known by how many
events it has received, and a future of `recv` has nothing to itself. -/
def receiver {T : Type} (c : Schedule T) : EventSource ℕ Unit T where
  next _ := ()
  poll now n f :=
    match (c.arrived now)[n]? with
    | some x => (.ready (some x), n + 1, f)
    | none => if c.ClosedBy now then (.ready none, n, f) else (.pending, n, f)
  events now n := (c.arrived now).drop n
  event {now n f x n' f'} h k := by
    split at h
    case h_1 y hy =>
      obtain ⟨⟩ := h
      obtain ⟨later, hlater⟩ := c.arrived_add now k
      obtain ⟨hlt, rfl⟩ := List.getElem?_eq_some_iff.mp hy
      rw [hlater, List.drop_append_of_le_length hlt.le, List.drop_append_of_le_length hlt,
        List.drop_eq_getElem_cons hlt]
      rfl
    case h_2 hnone => split at h <;> obtain ⟨⟩ := h
  closed {now n f n' f'} h k := by
    split at h
    case h_1 => obtain ⟨⟩ := h
    case h_2 =>
      split at h <;> obtain ⟨⟩ := h
      rfl
  cancelSafe {now n f n' f'} h k := by
    split at h
    case h_1 => obtain ⟨⟩ := h
    case h_2 =>
      split at h <;> obtain ⟨⟩ := h
      rfl

theorem receiver_prompt {T : Type} (c : Schedule T) : (receiver c).Prompt := by
  intro now n f hnone
  show (c.arrived now).drop n = []
  rw [List.drop_eq_nil_iff, ← List.getElem?_eq_none_iff]
  cases hnext : (c.arrived now)[n]? with
  | none => rfl
  | some x =>
    unfold receiver at hnone
    dsimp only at hnone
    rw [hnext] at hnone
    exact absurd hnone (Option.some_ne_none x)

/-! ## The helpers -/

/-- `ExpectError`; durations in nanoseconds. -/
inductive ExpectError where
  /-- `deadline ({0:?}) elapsed without a matching event`. -/
  | deadline (deadline : ℕ)
  /-- `event source closed without a matching event`. -/
  | closed
  /-- `expected silence but observed: {0}`. -/
  | unexpected (event : String)
  deriving DecidableEq

/-- The block under the timeout, between two polls. -/
structure Watch (S F P T : Type) where
  source : S
  /-- The future of `next` it waits for. -/
  next : Option F
  /-- The state of the predicate. -/
  pred : P
  /-- The events the predicate has been called on, in order. -/
  called : List T

section Helpers

variable {S F P T : Type} (src : EventSource S F T) (debug : T → String)
  (pred : P → T → Bool × P)

/-- The future that is polled: if there is none, `next` is called. -/
def Watch.future (w : Watch S F P T) : F := w.next.getD (src.next w.source)

/-- The predicate is called on an event. -/
def Watch.call (w : Watch S F P T) (s : S) (ev : T) : Watch S F P T :=
  ⟨s, none, (pred w.pred ev).2, w.called ++ [ev]⟩

/-- The block in `expect_matching`, polled. -/
def matchingBlock (now : ℕ) (w : Watch S F P T) :
    Poll (Except ExpectError T) × Watch S F P T :=
  match _h : src.poll now w.source (w.future src) with
  | (.ready (some ev), s, _) =>
    if (pred w.pred ev).1 then (.ready (.ok ev), w.call pred s ev)
    else matchingBlock now (w.call pred s ev)
  | (.ready none, s, _) => (.ready (.error .closed), { w with source := s, next := none })
  | (.pending, s, f) => (.pending, { w with source := s, next := some f })
termination_by (src.events now w.source).length
decreasing_by
  rw [src.event_now _h]
  exact Nat.lt_succ_self _

/-- The block in `expect_quiet`, polled. -/
def quietBlock (now : ℕ) (w : Watch S F P T) :
    Poll (Except ExpectError Unit) × Watch S F P T :=
  match _h : src.poll now w.source (w.future src) with
  | (.ready (some ev), s, _) =>
    if (pred w.pred ev).1 then (.ready (.error (.unexpected (debug ev))), w.call pred s ev)
    else quietBlock now (w.call pred s ev)
  | (.ready none, s, _) => (.ready (.error .closed), { w with source := s, next := none })
  | (.pending, s, f) => (.pending, { w with source := s, next := some f })
termination_by (src.events now w.source).length
decreasing_by
  rw [src.event_now _h]
  exact Nat.lt_succ_self _

/-- `expect_matching`, called at an instant and woken after each of the times: the
outcome, `none` where the caller gives it up, the instant at which it ends, and how
the block is left. -/
def expectMatching (deadline now : ℕ) (wakes : List ℕ) (s : S) (p : P) :
    Option (Except ExpectError T) × ℕ × Watch S F P T :=
  match timeout (matchingBlock src pred) (now + deadline) now wakes ⟨s, none, p, []⟩ with
  | (some (.ok inner), done) => (some inner, done)
  | (some (.error _), done) => (some (.error (.deadline deadline)), done)
  | (none, done) => (none, done)

/-- `expect_quiet`. -/
def expectQuiet (window now : ℕ) (wakes : List ℕ) (s : S) (p : P) :
    Option (Except ExpectError Unit) × ℕ × Watch S F P T :=
  match timeout (quietBlock src debug pred) (now + window) now wakes ⟨s, none, p, []⟩ with
  | (some (.ok inner), done) => (some inner, done)
  | (some (.error _), done) => (some (.ok ()), done)
  | (none, done) => (none, done)

end Helpers

/-! ## What the predicate says of a sequence of events -/

section Predicate

variable {P T : Type} (pred : P → T → Bool × P)

/-- Its state when it has been called on them. -/
def after (p : P) (evs : List T) : P := evs.foldl (fun p ev => (pred p ev).2) p

/-- The first of which it holds. -/
def firstMatch : P → List T → Option T
  | _, [] => none
  | p, ev :: evs => if (pred p ev).1 then some ev else firstMatch (pred p ev).2 evs

/-- Those up to the first of which it holds. -/
def upToMatch : P → List T → List T
  | _, [] => []
  | p, ev :: evs => if (pred p ev).1 then [ev] else ev :: upToMatch (pred p ev).2 evs

theorem after_concat (p : P) (evs : List T) (ev : T) :
    after pred p (evs ++ [ev]) = (pred (after pred p evs) ev).2 :=
  List.foldl_concat _ _ _ _

/-- Where there is no match, the search goes on behind it. -/
theorem firstMatch_append {p : P} {evs : List T} (h : firstMatch pred p evs = none)
    (more : List T) :
    firstMatch pred p (evs ++ more) = firstMatch pred (after pred p evs) more
      ∧ upToMatch pred p (evs ++ more) = evs ++ upToMatch pred (after pred p evs) more := by
  induction evs generalizing p with
  | nil => exact ⟨rfl, rfl⟩
  | cons ev evs ih =>
    unfold firstMatch at h
    split at h
    case isTrue => exact absurd h (Option.some_ne_none ev)
    case isFalse hno =>
      obtain ⟨hfirst, hupTo⟩ := ih h
      rw [List.cons_append, firstMatch, upToMatch, if_neg hno, if_neg hno, hfirst, hupTo]
      exact ⟨rfl, rfl⟩

/-- An event of which it holds ends the search. -/
theorem firstMatch_concat {p : P} {evs : List T} (h : firstMatch pred p evs = none) {ev : T}
    (hyes : (pred (after pred p evs) ev).1 = true) (more : List T) :
    firstMatch pred p (evs ++ [ev]) = some ev
      ∧ upToMatch pred p (evs ++ ev :: more) = evs ++ [ev] := by
  rw [(firstMatch_append pred h [ev]).1, (firstMatch_append pred h (ev :: more)).2, firstMatch,
    upToMatch, if_pos hyes, if_pos hyes]
  exact ⟨rfl, rfl⟩

/-- One of which it does not hold does not. -/
theorem firstMatch_concat_of_not {p : P} {evs : List T} (h : firstMatch pred p evs = none)
    {ev : T} (hno : ¬ (pred (after pred p evs) ev).1 = true) :
    firstMatch pred p (evs ++ [ev]) = none := by
  rw [(firstMatch_append pred h [ev]).1, firstMatch, if_neg hno]
  rfl

/-- Where there is no match, all are searched. -/
theorem upToMatch_of_none {p : P} {evs : List T} (h : firstMatch pred p evs = none) :
    upToMatch pred p evs = evs := by
  have hall := (firstMatch_append pred h []).2
  rwa [List.append_nil, upToMatch, List.append_nil] at hall

end Predicate

/-! ## What a poll does -/

section Polls

variable {S F P T : Type} (src : EventSource S F T) (debug : T → String)
  (pred : P → T → Bool × P)

/-- **What the block starts a poll from**: no match so far, and the events it has had
are those that are missing from the source. -/
structure Searching (s : S) (p : P) (now : ℕ) (w : Watch S F P T) : Prop where
  pred_eq : w.pred = after pred p w.called
  kept : ∀ k, src.events (now + k) s = w.called ++ src.events (now + k) w.source
  noMatch : firstMatch pred p w.called = none

/-- **What a poll leads to**, by what it gave. -/
structure Searched (s : S) (p : P) (now : ℕ) (r : Poll (Except ExpectError T))
    (w : Watch S F P T) : Prop where
  pred_eq : w.pred = after pred p w.called
  kept : ∀ k, src.events (now + k) s = w.called ++ src.events (now + k) w.source
  upTo : upToMatch pred p w.called = w.called
  found : firstMatch pred p w.called = r.value.bind Except.toOption
  error : ∀ e, r.value = some (.error e) → e = .closed
  /-- What had got to the source was seen. -/
  prompt : src.Prompt → w.called = upToMatch pred p (src.events now s)

variable {src pred} {s : S} {p : P} {now : ℕ} {w : Watch S F P T}

theorem Searching.later (h : Searching src pred s p now w) (d : ℕ) :
    Searching src pred s p (now + d) w where
  pred_eq := h.pred_eq
  kept k := by
    rw [Nat.add_assoc]
    exact h.kept (d + k)
  noMatch := h.noMatch

/-- A poll that hands over no event leaves the search where it is. -/
theorem Searching.searched (h : Searching src pred s p now w) {s' : S} {next : Option F}
    {r : Poll (Except ExpectError T)} (hr : r.value.bind Except.toOption = none)
    (herror : ∀ e, r.value = some (.error e) → e = .closed)
    (hkept : ∀ k, src.events (now + k) s' = src.events (now + k) w.source)
    (hnone : src.Prompt → src.events now w.source = []) :
    Searched src pred s p now r { w with source := s', next := next } where
  pred_eq := h.pred_eq
  kept k := by
    rw [h.kept k, hkept k]
  upTo := upToMatch_of_none pred h.noMatch
  found := h.noMatch.trans hr.symm
  error := herror
  prompt hprompt := by
    have hall := h.kept 0
    rw [Nat.add_zero, hnone hprompt, List.append_nil] at hall
    rw [hall, upToMatch_of_none pred h.noMatch]

/-- An event is handed over, and is one more that is missing. -/
theorem Searching.kept_call (h : Searching src pred s p now w) {f f' : F} {s' : S} {ev : T}
    (hpoll : src.poll now w.source f = (.ready (some ev), s', f')) (k : ℕ) :
    src.events (now + k) s
      = (w.call pred s' ev).called ++ src.events (now + k) (w.call pred s' ev).source := by
  rw [h.kept k, src.event hpoll k]
  exact (List.append_assoc w.called [ev] _).symm

theorem Searching.pred_call (h : Searching src pred s p now w) (s' : S) (ev : T) :
    (w.call pred s' ev).pred = after pred p (w.call pred s' ev).called := by
  show (pred w.pred ev).2 = after pred p (w.called ++ [ev])
  rw [after_concat, h.pred_eq]

/-- **A poll of the block of `expect_matching`.** -/
theorem Searching.matchingBlock (h : Searching src pred s p now w) :
    Searched src pred s p now (matchingBlock src pred now w).1
      (matchingBlock src pred now w).2 := by
  fun_induction Banc.matchingBlock src pred now w with
  | case1 w ev s' f' hpoll hyes =>
    rw [h.pred_eq] at hyes
    obtain ⟨hfirst, hupTo⟩ := firstMatch_concat pred h.noMatch hyes []
    exact {
      pred_eq := h.pred_call s' ev
      kept := h.kept_call hpoll
      upTo := hupTo
      found := hfirst
      error := fun e he => by obtain ⟨⟩ := he
      prompt := fun _ => by
        have hnow := h.kept 0
        rw [Nat.add_zero, src.event_now hpoll] at hnow
        rw [hnow]
        exact (firstMatch_concat pred h.noMatch hyes _).2.symm }
  | case2 w ev s' f' hpoll hno ih =>
    rw [h.pred_eq] at hno
    exact ih {
      pred_eq := h.pred_call s' ev
      kept := h.kept_call hpoll
      noMatch := firstMatch_concat_of_not pred h.noMatch hno }
  | case3 w s' f' hpoll =>
    refine h.searched rfl (fun e he => ?_) (src.closed hpoll) (fun hprompt => ?_)
    · exact (Except.error.inj (Option.some.inj he)).symm
    · exact hprompt now w.source (w.future src) (by rw [hpoll]; rfl)
  | case4 w s' f' hpoll =>
    refine h.searched rfl (fun e he => ?_) (src.cancelSafe hpoll) (fun hprompt => ?_)
    · exact absurd he.symm (Option.some_ne_none _)
    · exact hprompt now w.source (w.future src) (by rw [hpoll]; rfl)

/-- What the block of `expect_quiet` makes of what that of `expect_matching` returns. -/
def toQuiet (debug : T → String) : Except ExpectError T → Except ExpectError Unit
  | .ok ev => .error (.unexpected (debug ev))
  | .error e => .error e

/-- **The two blocks differ in what they return only.** -/
theorem quietBlock_eq (now : ℕ) (w : Watch S F P T) :
    quietBlock src debug pred now w
      = ((matchingBlock src pred now w).1.map (toQuiet debug),
        (matchingBlock src pred now w).2) := by
  fun_induction Banc.matchingBlock src pred now w with
  | case1 w ev s' f' hpoll hyes =>
    rw [quietBlock, hpoll]
    exact if_pos hyes
  | case2 w ev s' f' hpoll hno ih =>
    rw [quietBlock, hpoll, ← ih]
    exact if_neg hno
  | case3 w s' f' hpoll =>
    rw [quietBlock, hpoll]
    rfl
  | case4 w s' f' hpoll =>
    rw [quietBlock, hpoll]
    rfl

end Polls

/-! ## One call -/

section Call

variable {S F P T : Type} (src : EventSource S F T) (debug : T → String)
  (pred : P → T → Bool × P) (deadline now : ℕ) (wakes : List ℕ) (s : S) (p : P)

/-- The search both helpers make. -/
def search : Option (Except Elapsed (Except ExpectError T)) × ℕ × Watch S F P T :=
  timeout (matchingBlock src pred) (now + deadline) now wakes ⟨s, none, p, []⟩

/-- What `expect_matching` makes of how it ends. -/
def matchingOutcome : Except Elapsed (Except ExpectError T) → Except ExpectError T
  | .ok inner => inner
  | .error _ => .error (.deadline deadline)

/-- What `expect_quiet` makes of how it ends. -/
def quietOutcome : Except Elapsed (Except ExpectError T) → Except ExpectError Unit
  | .ok inner => toQuiet debug inner
  | .error _ => .ok ()

theorem expectMatching_eq :
    expectMatching src pred deadline now wakes s p
      = ((search src pred deadline now wakes s p).1.map (matchingOutcome deadline),
        (search src pred deadline now wakes s p).2) := by
  unfold expectMatching search
  split
  all_goals
    rename_i hend
    rw [hend]
    rfl

/-- **Both make the same search.** -/
theorem expectQuiet_eq :
    expectQuiet src debug pred deadline now wakes s p
      = ((search src pred deadline now wakes s p).1.map (quietOutcome debug),
        (search src pred deadline now wakes s p).2) := by
  unfold expectQuiet search
  rw [timeout_map (matchingBlock src pred) _ (quietBlock_eq debug)]
  generalize timeout (matchingBlock src pred) (now + deadline) now wakes ⟨s, none, p, []⟩ = r
  obtain ⟨outcome, done⟩ := r
  cases outcome with
  | none => rfl
  | some outcome =>
    cases outcome with
    | error => rfl
    | ok => rfl

/-- **The search** sees the events that are then missing from the source. -/
theorem searched_search :
    Searched src pred s p (search src pred deadline now wakes s p).2.1
      (lastPoll (search src pred deadline now wakes s p).1)
      (search src pred deadline now wakes s p).2.2 :=
  timeout_spec (I := Searching src pred s p) (R := Searched src pred s p) _ _
    (fun d h => h.later d) (fun h => h.matchingBlock)
    (fun h => ⟨h.pred_eq, h.kept, h.found⟩) now wakes ⟨rfl, fun _ => rfl, rfl⟩

/-- **On a receiver**, of all that had arrived. -/
theorem called_receiver (c : Schedule T) (n : ℕ) :
    (search (receiver c) pred deadline now wakes n p).2.2.called
      = upToMatch pred p
        ((c.arrived (search (receiver c) pred deadline now wakes n p).2.1).drop n) :=
  (searched_search (receiver c) pred deadline now wakes n p).prompt (receiver_prompt c)

/-- The ways in which a search ends: given up by the caller, at the timeout, with a
match, or with the source. -/
theorem search_cases :
    (((search src pred deadline now wakes s p).1 = none
        ∨ (search src pred deadline now wakes s p).1 = some (.error ⟨⟩)
        ∨ (search src pred deadline now wakes s p).1 = some (.ok (.error .closed)))
      ∧ firstMatch pred p (search src pred deadline now wakes s p).2.2.called = none)
    ∨ ∃ ev, (search src pred deadline now wakes s p).1 = some (.ok (.ok ev))
      ∧ firstMatch pred p (search src pred deadline now wakes s p).2.2.called = some ev := by
  have hsearched := searched_search src pred deadline now wakes s p
  have hfound := hsearched.found
  have herror := hsearched.error
  generalize (search src pred deadline now wakes s p).1 = r at hfound herror
  match r, hfound, herror with
  | none, hfound, _ => exact .inl ⟨.inl rfl, hfound⟩
  | some (.error _), hfound, _ => exact .inl ⟨.inr (.inl rfl), hfound⟩
  | some (.ok (.error e)), hfound, herror =>
    obtain rfl := herror e rfl
    exact .inl ⟨.inr (.inr rfl), hfound⟩
  | some (.ok (.ok ev)), hfound, _ => exact .inr ⟨ev, rfl, hfound⟩

end Call

/-! ## Calls one after the other -/

/-- The two helpers. -/
inductive Helper where
  | matching
  | quiet

/-- A call of one of them. -/
structure ExpectCall (T : Type) : Type 1 where
  helper : Helper
  /-- The states of its predicate. -/
  P : Type
  pred : P → T → Bool × P
  p : P
  deadline : ℕ
  /-- How long after the last call it is made. -/
  idle : ℕ
  wakes : List ℕ

section Calls

variable {S F T : Type} (src : EventSource S F T) (debug : T → String)

/-- The events it consumes, the instant at which it ends, and the source it leaves. -/
def ExpectCall.run (c : ExpectCall T) (now : ℕ) (s : S) : List T × ℕ × S :=
  match c.helper with
  | .matching =>
    let (_, ended, w) := expectMatching src c.pred c.deadline (now + c.idle) c.wakes s c.p
    (w.called, ended, w.source)
  | .quiet =>
    let (_, ended, w) := expectQuiet src debug c.pred c.deadline (now + c.idle) c.wakes s c.p
    (w.called, ended, w.source)

/-- The events each of the calls consumes, the instant at which the last ends, and the
source it leaves. -/
def runCalls : List (ExpectCall T) → ℕ → S → List (List T) × ℕ × S
  | [], now, s => ([], now, s)
  | c :: calls, now, s =>
    let (evs, now, s) := c.run src debug now s
    let (more, now, s) := runCalls calls now s
    (evs :: more, now, s)

theorem ExpectCall.run_eq (c : ExpectCall T) (now : ℕ) (s : S) :
    c.run src debug now s
      = ((search src c.pred c.deadline (now + c.idle) c.wakes s c.p).2.2.called,
        (search src c.pred c.deadline (now + c.idle) c.wakes s c.p).2.1,
        (search src c.pred c.deadline (now + c.idle) c.wakes s c.p).2.2.source) := by
  unfold ExpectCall.run
  split
  · rw [expectMatching_eq]
  · rw [expectQuiet_eq]

/-- **A call loses nothing.** -/
theorem ExpectCall.run_kept (c : ExpectCall T) (now : ℕ) (s : S) :
    now ≤ (c.run src debug now s).2.1
      ∧ ∀ k, src.events ((c.run src debug now s).2.1 + k) s
        = (c.run src debug now s).1
          ++ src.events ((c.run src debug now s).2.1 + k) (c.run src debug now s).2.2 := by
  rw [c.run_eq]
  exact ⟨(Nat.le_add_right now c.idle).trans (le_timeout _ _ _ _ _),
    (searched_search src c.pred c.deadline (now + c.idle) c.wakes s c.p).kept⟩

/-- **Nor do calls one after the other.** -/
theorem runCalls_kept (calls : List (ExpectCall T)) (now : ℕ) (s : S) :
    now ≤ (runCalls src debug calls now s).2.1
      ∧ ∀ k, src.events ((runCalls src debug calls now s).2.1 + k) s
        = (runCalls src debug calls now s).1.flatten
          ++ src.events ((runCalls src debug calls now s).2.1 + k)
            (runCalls src debug calls now s).2.2 := by
  induction calls generalizing now s with
  | nil => exact ⟨le_rfl, fun _ => rfl⟩
  | cons c calls ih =>
    obtain ⟨hnow, hkept⟩ := c.run_kept src debug now s
    obtain ⟨hlater, hrest⟩ := ih (c.run src debug now s).2.1 (c.run src debug now s).2.2
    refine ⟨hnow.trans hlater, fun k => ?_⟩
    obtain ⟨d, hd⟩ := Nat.exists_eq_add_of_le hlater
    have hone := hkept (d + k)
    rw [← Nat.add_assoc, ← hd, hrest k] at hone
    rw [runCalls, List.flatten_cons, List.append_assoc]
    exact hone

end Calls

/-- **The two helpers are dual, and lose nothing.** Called on the same source, at the
same time, with the same predicate, and woken at the same times, they call the
predicate on the same events, once on each and in order, which are those that are then
missing from the source: those up to the first match among what was handed over
before the timeout, and so among all that had arrived if the source keeps nothing
back. One returns that event where the other reports it; one reports the timeout where
the other succeeds; both report a source that closes; and both return, if they are
polled when the timer has expired. Whatever calls are made one after the other, what
they consumed and what is left is what there was. -/
theorem expect_duals {S F P T : Type} (src : EventSource S F T) (debug : T → String)
    (pred : P → T → Bool × P) (p : P) (deadline now : ℕ) (wakes : List ℕ) (s : S)
    (calls : List (ExpectCall T)) :
    let m := expectMatching src pred deadline now wakes s p
    let q := expectQuiet src debug pred deadline now wakes s p
    let ended := m.2.1
    let done := m.2.2
    let chain := runCalls src debug calls now s
    (q.2 = m.2
      ∧ done.pred = after pred p done.called
      ∧ (∀ k, src.events (ended + k) s = done.called ++ src.events (ended + k) done.source)
      ∧ done.called = upToMatch pred p done.called
      ∧ (src.Prompt → done.called = upToMatch pred p (src.events ended s)))
    ∧ ((∀ ev, m.1 = some (.ok ev) ↔ firstMatch pred p done.called = some ev)
      ∧ (∀ msg, q.1 = some (.error (.unexpected msg))
        ↔ ∃ ev, m.1 = some (.ok ev) ∧ msg = debug ev)
      ∧ (m.1 = some (.error .closed) ↔ q.1 = some (.error .closed))
      ∧ (m.1 = some (.error (.deadline deadline)) ↔ q.1 = some (.ok ()))
      ∧ (m.1 = some (.error (.deadline deadline)) → now + deadline ≤ ended)
      ∧ (deadline ≤ wakes.sum → m.1.isSome = true ∧ q.1.isSome = true))
    ∧ ∀ k, src.events (chain.2.1 + k) s
        = chain.1.flatten ++ src.events (chain.2.1 + k) chain.2.2 := by
  rw [expectMatching_eq, expectQuiet_eq]
  have hsearched := searched_search src pred deadline now wakes s p
  have hends := search_cases src pred deadline now wakes s p
  have hdue : (search src pred deadline now wakes s p).1 = some (.error ⟨⟩)
      → now + deadline ≤ (search src pred deadline now wakes s p).2.1 :=
    due_le_of_elapsed _ _ _ _ _
  have hreturns : deadline ≤ wakes.sum
      → (search src pred deadline now wakes s p).1.isSome = true :=
    fun h => timeout_returns _ _ _ _ _ (Nat.add_le_add_left h now)
  refine ⟨⟨rfl, hsearched.pred_eq, hsearched.kept, hsearched.upTo.symm, hsearched.prompt⟩,
    ?_, (runCalls_kept src debug calls now s).2⟩
  dsimp only
  generalize search src pred deadline now wakes s p = ends at hends hdue hreturns ⊢
  obtain ⟨r, ended, done⟩ := ends
  obtain ⟨rfl | rfl | rfl, hfound⟩ | ⟨ev, rfl, hfound⟩ := hends
  · simpa [hfound] using hreturns
  · simpa [hfound, matchingOutcome, quietOutcome] using hdue
  · simp [hfound, matchingOutcome, quietOutcome, toQuiet]
  · simp [hfound, matchingOutcome, quietOutcome, toQuiet, eq_comm]

end Banc
