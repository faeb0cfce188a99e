import Banc.Lib.Transition
import Banc.Runner.Evidence
import Mathlib.Data.List.DropRight

/-!
# Evidence is a tail

What `Evidence` retains is the end of everything that was recorded, and the count
says how much is missing at the beginning (`Evidence.entries_recordAll`,
`Evidence.dropped_recordAll`). So what it renders is the end of the history too,
and says so where it is not all of it.

The history is that of any number of threads, each with a clone of the evidence.
`record` takes the lock, reads the clock, and adds the entry before it lets go of
the lock; between these the other threads go on, and time does. `Recording` is this
as a system. The lock is what makes one history of it (`Ordered`): entries are added
one at a time, and the times in them never go back, since each was read after the
entries before it had been added.
-/

namespace Banc

open Fs Postcard

namespace Evidence

/-! ## What is retained -/

/-- The last entry is recorded last. -/
theorem recordAll_concat (ev : Evidence) (es : List Entry) (e : Entry) :
    ev.recordAll (es ++ [e]) = (ev.recordAll es).record e :=
  List.foldl_concat record ev e es

/-- **What is retained is the end of the history**, and the rest is counted. -/
theorem recordAll_new (test : String) (es : List Entry) :
    ((new test).recordAll es).entries = es.drop (es.length - maxEntries)
      ∧ ((new test).recordAll es).dropped = es.length - maxEntries := by
  induction es using List.reverseRecOn with
  | nil => exact ⟨rfl, rfl⟩
  | append_singleton es e ih =>
    obtain ⟨hentries, hdropped⟩ := ih
    rw [recordAll_concat, record]
    generalize (new test).recordAll es = ev at hentries hdropped
    have hlength : ev.entries.length = es.length - (es.length - maxEntries) := by
      rw [hentries, List.length_drop]
    have hpos : 0 < maxEntries := by decide
    rw [List.length_append, List.length_singleton]
    by_cases hfull : maxEntries ≤ ev.entries.length
    · -- the oldest entry makes room
      have hmore : es.length + 1 - maxEntries = es.length - maxEntries + 1 := by omega
      rw [dif_pos hfull, hmore]
      refine ⟨?_, congrArg (· + 1) hdropped⟩
      show ev.entries.tail ++ [e] = _
      rw [List.drop_append_of_le_length (by omega), hentries, List.tail_drop]
    · have hnone : es.length + 1 - maxEntries = es.length - maxEntries := by omega
      rw [dif_neg hfull, hnone]
      refine ⟨?_, hdropped⟩
      show ev.entries ++ [e] = _
      rw [List.drop_append_of_le_length (by omega), hentries]

/-- The notice of `tail`. -/
def tailNotice (dropped : ℕ) : String :=
  "[... " ++ toString dropped ++ " earlier entries dropped ...]\n"

/-- The notice of `persist`. -/
def logNotice (dropped : ℕ) : String :=
  "[... " ++ toString dropped ++ " earlier entries dropped (evidence cap) ...]\n"

end Evidence

/-! ## Many producers -/

/-- Where a thread is in `record`. -/
inductive Producer where
  | idle
  /-- In `lock`. -/
  | locking (source line : String)
  /-- It has the lock. -/
  | locked (source line : String)
  /-- It has read the clock. -/
  | stamped (e : Entry)
  deriving DecidableEq

/-- The threads that have a clone of some evidence. -/
structure Recording where
  /-- Nanoseconds since the evidence was created. -/
  clock : ℕ
  evidence : Evidence
  /-- The thread that has the lock. -/
  lock : Option ℕ
  threads : ℕ → Producer
  /-- The entries of the calls, in the order in which they had the lock. -/
  history : List Entry

/-- What may happen. -/
inductive RecordAction where
  | tick (ns : ℕ)
  /-- A thread calls `record`. -/
  | call (thread : ℕ) (source line : String)
  | lock (thread : ℕ)
  /-- It reads the clock. -/
  | stamp (thread : ℕ)
  /-- It adds the entry, and gives the lock back. -/
  | push (thread : ℕ)
  deriving DecidableEq

namespace Recording

/-- `Evidence::new`. -/
def new (test : String) : Recording := ⟨0, .new test, none, fun _ => .idle, []⟩

/-- A thread goes on. -/
def go (s : Recording) (thread : ℕ) (p : Producer) : Recording :=
  { s with threads := Function.update s.threads thread p }

@[simp] theorem threads_go_self (s : Recording) (thread : ℕ) (p : Producer) :
    (s.go thread p).threads thread = p := by
  unfold go
  exact Function.update_self thread p s.threads

theorem threads_go_of_ne (s : Recording) {i thread : ℕ} (h : i ≠ thread) (p : Producer) :
    (s.go thread p).threads i = s.threads i := by
  unfold go
  exact Function.update_of_ne h p s.threads

/-- `elapsed().as_micros()`. -/
def elapsedUs (s : Recording) : ℕ := s.clock / 1000

/-- The step function. -/
def step (s : Recording) : RecordAction → Option Recording
  | .tick ns => some { s with clock := s.clock + ns }
  | .call thread source line =>
    if s.threads thread = .idle then some (s.go thread (.locking source line)) else none
  | .lock thread =>
    match s.threads thread with
    | .locking source line =>
      if s.lock = none then some { s.go thread (.locked source line) with lock := some thread }
      else none
    | _ => none
  | .stamp thread =>
    match s.threads thread with
    | .locked source line => some (s.go thread (.stamped ⟨s.elapsedUs, source, line⟩))
    | _ => none
  | .push thread =>
    match s.threads thread with
    | .stamped e =>
      some { s.go thread .idle with
        evidence := s.evidence.record e
        lock := none
        history := s.history ++ [e] }
    | _ => none

end Recording

/-- A thread between `lock` and the end of `record`. -/
def Producer.inside : Producer → Bool
  | .locked _ _ | .stamped _ => true
  | _ => false

/-- **The invariant**: the evidence is that of the history, whoever is inside has the
lock, and times are in order. -/
structure Ordered (test : String) (s : Recording) : Prop where
  evidence : s.evidence = (Evidence.new test).recordAll s.history
  exclusive : ∀ i, (s.threads i).inside = true → s.lock = some i
  sorted : s.history.Pairwise (fun e e' => e.atUs ≤ e'.atUs)
  past : ∀ e ∈ s.history, e.atUs ≤ s.elapsedUs
  stamped : ∀ i e, s.threads i = .stamped e →
    e.atUs ≤ s.elapsedUs ∧ ∀ e' ∈ s.history, e'.atUs ≤ e.atUs

namespace Ordered

variable {test : String} {s s' : Recording}

/-- Nothing is recorded. -/
theorem start : Ordered test (.new test) where
  evidence := rfl
  exclusive _ hi := absurd hi.symm Bool.false_ne_true.symm
  sorted := List.Pairwise.nil
  past _ he := absurd he List.not_mem_nil
  stamped _ _ he := Producer.noConfusion he

/-- Time goes on. -/
theorem tick (h : Ordered test s) (ns : ℕ) : Ordered test { s with clock := s.clock + ns } := by
  have hle : s.elapsedUs ≤ (s.clock + ns) / 1000 :=
    Nat.div_le_div_right (Nat.le_add_right s.clock ns)
  exact {
    evidence := h.evidence
    exclusive := h.exclusive
    sorted := h.sorted
    past := fun e he => (h.past e he).trans hle
    stamped := fun i e he => ⟨(h.stamped i e he).1.trans hle, (h.stamped i e he).2⟩ }

/-- A thread goes on that has the lock, or does not need it. -/
theorem go (h : Ordered test s) {thread : ℕ} {p : Producer}
    (hlock : p.inside = true → s.lock = some thread)
    (hstamped : ∀ e, p = .stamped e → e.atUs = s.elapsedUs) : Ordered test (s.go thread p) where
  evidence := h.evidence
  exclusive i hi := by
    by_cases hthread : i = thread
    · subst hthread
      rw [s.threads_go_self] at hi
      exact hlock hi
    · rw [s.threads_go_of_ne hthread] at hi
      exact h.exclusive i hi
  sorted := h.sorted
  past := h.past
  stamped i e he := by
    by_cases hthread : i = thread
    · subst hthread
      rw [s.threads_go_self] at he
      -- the clock has been read after all that is in the history
      have hnow : e.atUs = s.elapsedUs := hstamped e he
      exact ⟨hnow.le, fun e' he' => (h.past e' he').trans hnow.ge⟩
    · rw [s.threads_go_of_ne hthread] at he
      exact h.stamped i e he

/-- A thread gets the lock, which nobody has. -/
theorem lock (h : Ordered test s) (hfree : s.lock = none) (thread : ℕ) (source line : String) :
    Ordered test { s.go thread (.locked source line) with lock := some thread } where
  evidence := h.evidence
  exclusive i hi := by
    by_cases hthread : i = thread
    · rw [hthread]
    · change ((s.go thread _).threads i).inside = true at hi
      rw [s.threads_go_of_ne hthread] at hi
      exact absurd (hfree.symm.trans (h.exclusive i hi)) (Option.some_ne_none i).symm
  sorted := h.sorted
  past := h.past
  stamped i e he := by
    by_cases hthread : i = thread
    · subst hthread
      change (s.go i _).threads i = _ at he
      rw [s.threads_go_self] at he
      exact Producer.noConfusion he
    · change (s.go thread _).threads i = _ at he
      rw [s.threads_go_of_ne hthread] at he
      exact h.stamped i e he

/-- **An entry is added**, after all that are there. -/
theorem push (h : Ordered test s) {thread : ℕ} {e : Entry} (he : s.threads thread = .stamped e) :
    Ordered test { s.go thread .idle with
      evidence := s.evidence.record e
      lock := none
      history := s.history ++ [e] } := by
  obtain ⟨hnow, hlast⟩ := h.stamped thread e he
  have hholds : s.lock = some thread := h.exclusive thread (by rw [he]; rfl)
  -- nobody else is inside
  have hother : ∀ i, ((s.go thread .idle).threads i).inside = false := by
    intro i
    by_cases hthread : i = thread
    · rw [hthread, s.threads_go_self]
      rfl
    · rw [s.threads_go_of_ne hthread]
      by_contra hinside
      have hi : s.lock = some i := h.exclusive i (by simpa using hinside)
      exact hthread (Option.some.inj (hi.symm.trans hholds))
  exact {
    evidence := by
      dsimp only
      rw [Evidence.recordAll_concat, ← h.evidence]
    exclusive := fun i hi => absurd ((hother i).symm.trans hi) Bool.false_ne_true
    sorted := List.pairwise_append.mpr
      ⟨h.sorted, List.pairwise_singleton _ _, fun e' he' e'' he'' =>
        List.mem_singleton.mp he'' ▸ hlast e' he'⟩
    past := fun e' he' => by
      obtain he' | he' := List.mem_append.mp he'
      · exact h.past e' he'
      · exact List.mem_singleton.mp he' ▸ hnow
    stamped := fun i e' he' => by
      have hidle := hother i
      change (s.go thread .idle).threads i = _ at he'
      rw [he'] at hidle
      exact absurd hidle.symm Bool.false_ne_true }

/-- **Every step keeps the history in order.** -/
theorem step (h : Ordered test s) {a : RecordAction} (hs : s.step a = some s') :
    Ordered test s' := by
  cases a with
  | tick ns => exact Option.some.inj hs ▸ h.tick ns
  | call thread source line =>
    obtain ⟨-, ⟨⟩⟩ := Option.ite_none_right_eq_some.mp hs
    exact h.go (fun hinside => absurd hinside.symm Bool.false_ne_true.symm)
      (fun e he => Producer.noConfusion he)
  | lock thread =>
    unfold Recording.step at hs
    dsimp only at hs
    split at hs
    case h_1 source line hthread =>
      obtain ⟨hfree, ⟨⟩⟩ := Option.ite_none_right_eq_some.mp hs
      exact h.lock hfree thread source line
    case h_2 => exact absurd hs.symm (Option.some_ne_none s')
  | stamp thread =>
    unfold Recording.step at hs
    dsimp only at hs
    split at hs
    case h_1 source line hthread =>
      obtain ⟨⟩ := hs
      refine h.go (fun _ => h.exclusive thread (by rw [hthread]; rfl)) (fun e he => ?_)
      exact congrArg Entry.atUs (Producer.stamped.inj he).symm
    case h_2 => exact absurd hs.symm (Option.some_ne_none s')
  | push thread =>
    unfold Recording.step at hs
    dsimp only at hs
    split at hs
    case h_1 e hthread =>
      obtain ⟨⟩ := hs
      exact h.push hthread
    case h_2 => exact absurd hs.symm (Option.some_ne_none s')

/-- And so of a run. -/
theorem run {as : List RecordAction}
    (hrun : Transition.run Recording.step (.new test) as = some s) : Ordered test s :=
  Transition.run_preserves (I := Ordered test) (fun _ _ _ h hs => h.step hs) start hrun

end Ordered

/-! ## What is rendered -/

namespace Evidence

variable {test : String} {es : List Entry} {ev : Evidence}

/-- **The end of the history**, as many entries as the cap allows. -/
theorem entries_of_history (h : ev = (new test).recordAll es) :
    ev.entries = es.rtake (min es.length maxEntries) := by
  have hmin : es.length - min es.length maxEntries = es.length - maxEntries := by omega
  rw [h, (recordAll_new test es).1, List.rtake, hmin]

/-- The count is of those that are not retained. -/
theorem dropped_of_history (h : ev = (new test).recordAll es) :
    ev.dropped = es.length - ev.entries.length := by
  rw [h, (recordAll_new test es).1, (recordAll_new test es).2, List.length_drop]
  omega

/-- **A tail of what is retained is a tail of the history.** -/
theorem tail_of_history (h : ev = (new test).recordAll es) (k : ℕ) :
    ev.tail k
      = (if 0 < ev.dropped ∧ ev.entries.length ≤ k then tailNotice ev.dropped else "")
        ++ String.join ((es.rtake (min k ev.entries.length)).map Entry.render) := by
  have hentries : ev.entries = es.drop (es.length - maxEntries) := by
    rw [h]
    exact (recordAll_new test es).1
  have hdrop : ev.entries.drop (ev.entries.length - k) = es.rtake (min k ev.entries.length) := by
    rw [List.rtake, hentries, List.drop_drop, List.length_drop]
    congr 1
    omega
  unfold tail
  dsimp only
  rw [hdrop]
  simp only [Nat.sub_eq_zero_iff_le]
  rfl

end Evidence

/-- **Evidence is the end of everything recorded**, by whichever threads, in the
order in which they had the lock. What is retained is the end of the history, with
times in order, and the count says how much is missing. An entry reads as a line with
its time in milliseconds, right-aligned, its source and its text. What a tail shows
are the lines of the end of the history, after a notice of the count where all that is
retained is shown and that is not all, so that the notice is there if an entry among
those asked for is gone. And `persist` returns exactly if the directory and the file
can be made, with the path of the file, and has written the lines of all that is
retained, after a notice if that is not all. -/
theorem evidence_eq_tail (test : String) (as : List RecordAction) {s : Recording}
    (hrun : Transition.run Recording.step (.new test) as = some s) :
    let reads : Entry → String := fun e =>
      "[" ++ String.ofList (((toString (e.atUs / 1000)).toList
          ++ '.' :: (toString (e.atUs % 1000)).toList.leftpad 3 '0').leftpad 10 ' ')
        ++ "ms " ++ e.source ++ "] " ++ e.line ++ "\n"
    s.evidence.entries = s.history.rtake (min s.history.length maxEntries)
      ∧ s.evidence.entries.Pairwise (fun e e' => e.atUs ≤ e'.atUs)
      ∧ s.evidence.dropped = s.history.length - s.evidence.entries.length
      ∧ (∀ k, s.evidence.tail k
          = (if 0 < s.evidence.dropped ∧ s.evidence.entries.length ≤ k
              then Evidence.tailNotice s.evidence.dropped else "")
            ++ String.join
              ((s.history.rtake (min k s.evidence.entries.length)).map reads))
      ∧ (∀ k i, s.history.length - k ≤ i → i < s.history.length → i < s.evidence.dropped →
          ∃ shown, s.evidence.tail k = Evidence.tailNotice s.evidence.dropped ++ shown)
      ∧ ∀ (host : HostFs) (dir : Path) (path : Path) (content : List UInt8),
          s.evidence.persist host dir = .ok (path, content)
            ↔ host.createDirAll dir = .ok () ∧ host.openFile path = .ok ()
              ∧ path = join dir (utf8 (sanitize test ++ ".evidence.log"))
              ∧ content = utf8 ((if 0 < s.evidence.dropped
                  then Evidence.logNotice s.evidence.dropped else "")
                ++ String.join (s.evidence.entries.map reads)) := by
  intro reads
  have hordered : Ordered test s := Ordered.run hrun
  have hentries := Evidence.entries_of_history hordered.evidence
  have hdropped := Evidence.dropped_of_history hordered.evidence
  have htail := Evidence.tail_of_history hordered.evidence
  have htest : s.evidence.test = test := by
    rw [hordered.evidence, Evidence.test_recordAll]
    rfl
  refine ⟨hentries, ?_, hdropped, htail, fun k i hk hi hgone => ?_,
    fun host dir path content => ?_⟩
  · rw [hentries]
    exact hordered.sorted.sublist (List.drop_sublist _ _)
  · have hall : 0 < s.evidence.dropped ∧ s.evidence.entries.length ≤ k := by omega
    rw [htail, if_pos hall]
    exact ⟨_, rfl⟩
  · rw [Evidence.persist_eq_ok_iff, htest]
    constructor
    · rintro ⟨hdir, hfile, heq⟩
      obtain ⟨rfl, rfl⟩ := Prod.mk.inj heq
      exact ⟨hdir, hfile, rfl, rfl⟩
    · rintro ⟨hdir, hfile, rfl, rfl⟩
      exact ⟨hdir, hfile, rfl⟩

/-- Two threads, the second of which waits for the lock while the first has it; the end
of what they have recorded, and all of it, as it is shown and as it is persisted. -/
theorem evidence_eq_tail_two :
    ∃ s, Transition.run Recording.step (.new "a/b")
        [.call 0 "defmt" "boot", .lock 0, .call 1 "net" "up", .tick 5000, .stamp 0, .push 0,
          .lock 1, .tick 1234562000, .stamp 1, .push 1] = some s
      ∧ s.evidence.tail 1 = "[  1234.567ms net] up\n"
      ∧ s.evidence.persist ⟨fun _ => .ok (), fun _ => .ok ()⟩ (utf8 "out")
        = .ok (utf8 "out/a_b.evidence.log",
          utf8 "[     0.005ms defmt] boot\n[  1234.567ms net] up\n") := by
  have hend : (Transition.run Recording.step (.new "a/b")
      [.call 0 "defmt" "boot", .lock 0, .call 1 "net" "up", .tick 5000, .stamp 0, .push 0,
        .lock 1, .tick 1234562000, .stamp 1, .push 1]).map (fun s => (s.history,
          s.evidence.dropped, s.evidence.entries))
      = some ([⟨5, "defmt", "boot"⟩, ⟨1234567, "net", "up"⟩], 0,
          [⟨5, "defmt", "boot"⟩, ⟨1234567, "net", "up"⟩]) := by
    decide +kernel
  obtain ⟨s, hrun, hs⟩ := Option.map_eq_some_iff.mp hend
  simp only [Prod.mk.injEq] at hs
  obtain ⟨hhistory, hdropped, hentries⟩ := hs
  obtain ⟨-, -, -, htail, -, hpersist⟩ := evidence_eq_tail "a/b" _ hrun
  refine ⟨s, hrun, ?_, (hpersist _ _ _ _).mpr ⟨rfl, rfl, ?_, ?_⟩⟩
  · rw [htail 1, hdropped, hentries, hhistory]
    decide +kernel
  · decide +kernel
  · rw [hdropped, hentries]
    decide +kernel

end Banc
