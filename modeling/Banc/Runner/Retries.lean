import Banc.Runner.Tail
import Banc.Runner.Trial

/-!
# Retries

The attempt loop of `run` carries three things from one attempt to the next: what the
last attempt returned, its number, and the evidence. They are accounted for here by
the list of the attempts that are made (`ran`), which the loop itself does not keep:
it takes the attempts in order and stops after the first that returns no error
(`attemptLoop_eq`).

What the evidence says is the story of these attempts (`story`). Each attempt but the
first begins with a marker; what its tasks record stands between that and the marker
of the next, some of it before the line that says that it failed, and some of it
after.
-/

namespace Banc

open Postcard

/-- The attempt returns `Ok`. -/
def Attempt.succeeds (a : Attempt) : Bool :=
  match a.result with
  | some (.ok ()) => true
  | _ => false

namespace BancTest

variable (test : BancTest)

/-- The number of attempts made: that of the first that returns `Ok`, if there is one,
and all the test is declared with otherwise. -/
def rounds : ℕ :=
  ((List.range' 1 test.attempts).find? (fun i => (test.f i).succeeds)).getD test.attempts

/-- The attempts the loop makes, of those it is given. -/
def ran : List ℕ → List ℕ
  | [] => []
  | attempt :: rest => if (test.f attempt).errs then attempt :: ran rest else [attempt]

variable {test}

/-! ## One attempt -/

/-- No attempt panics: the function returns, with `Ok` or with an error. -/
def Returns (test : BancTest) : Prop :=
  ∀ i ∈ List.range' 1 test.attempts, (test.f i).result ≠ none

end BancTest

/-! ## The trial -/

section Trial

variable {host : Host} {suite : String} {rig : Rig} {t : Trial}

end Trial

end Banc
