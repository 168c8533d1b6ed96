import Rch.Kit.Outcome
import Rch.Domain.Transitions
import Rch.Domain.Master

/-!
# Refusals

A service answers or throws. What it throws carries a code, the status that
goes with it, and the sentence the operator reads. A refusal rolls the whole
transaction back, so an outcome is either a refusal or the state the
transaction commits.
-/

namespace Rch

open Kit

/-- The classes of error a request can end in. The register's own closing is a
conflict with a class of its own, so that a capture can tell it from a
refusal. -/
inductive ErrorCode
  | validation | unauthenticated | forbidden | notFound | conflict
  | registerClosing | rule | rateLimited | notReady | internal
deriving DecidableEq, Repr

def ErrorCode.status : ErrorCode → ℕ
  | validation => 400
  | unauthenticated => 401
  | forbidden => 403
  | notFound => 404
  | conflict => 409
  | registerClosing => 409
  | rule => 422
  | rateLimited => 429
  | notReady => 503
  | internal => 500

structure Refusal where
  code : ErrorCode
  message : String
deriving DecidableEq, Repr

abbrev Outcome (α : Type) := Except Refusal α

/-- A domain rule: the message is what the operator reads. -/
def assertRule (c : Prop) [Decidable c] (message : String) : Outcome Unit :=
  guardOr c ⟨.rule, message⟩

/-- The transition table is data; a stale screen is refused by it. -/
def assertTransition {S : Type} [DecidableEq S] (table : TransitionTable S)
    (word : S → String) (now next : S) (what : String) : Outcome Unit :=
  assertRule (canTransition table now next = true)
    (what ++ " is already " ++ (word now).toLower)

/-- A rule checked on each line in turn; the first that fails is the one the
operator is told about. -/
def assertEach {α : Type} (l : List α) (c : α → Prop) [DecidablePred c]
    (message : α → String) : Outcome Unit :=
  checkEach l fun a => assertRule (c a) (message a)

def orNotFound {α : Type} (o : Option α) (message : String) : Outcome α :=
  someOr o ⟨.notFound, message⟩

/-- A write the database itself refuses: a taken key, a failed check. -/
def orInternal {α : Type} (o : Option α) (what : String) : Outcome α :=
  someOr o ⟨.internal, what⟩

def assertValid (c : Prop) [Decidable c] (message : String) : Outcome Unit :=
  guardOr c ⟨.validation, message⟩

/-- The caller of a service: who, working where, and whether hospital-wide. -/
structure Claims where
  sub : String
  loc : LocKey
  wide : Bool
deriving DecidableEq

/-- For a write whose location is only known once the document is read. -/
def requireLocOf (claims : Claims) (loc : LocKey) (what : String) :
    Outcome Unit :=
  guardOr (claims.loc = loc)
    ⟨.forbidden, "You can only do this for " ++ what ++ "."⟩

/-! ## What an accepted call passed -/

section Accepted

variable {α S : Type} {u : Unit}

theorem assertRule_ok {c : Prop} {_ : Decidable c} {m : String} :
    assertRule c m = .ok u ↔ c := guardOr_ok

theorem assertValid_ok {c : Prop} {_ : Decidable c} {m : String} :
    assertValid c m = .ok u ↔ c := guardOr_ok

theorem assertTransition_ok [DecidableEq S] {table : TransitionTable S}
    {word : S → String} {now next : S} {what : String} :
    assertTransition table word now next what = .ok u ↔ next ∈ table now := by
  rw [assertTransition, assertRule_ok, canTransition_iff]

theorem assertEach_ok {l : List α} {c : α → Prop} {_ : DecidablePred c}
    {m : α → String} : assertEach l c m = .ok u ↔ ∀ a ∈ l, c a := by
  simp only [assertEach, checkEach_ok, assertRule_ok]

theorem orNotFound_ok {o : Option α} {m : String} {a : α} :
    orNotFound o m = .ok a ↔ o = some a := someOr_ok

theorem orInternal_ok {o : Option α} {m : String} {a : α} :
    orInternal o m = .ok a ↔ o = some a := someOr_ok

theorem requireLocOf_ok {claims : Claims} {loc : LocKey} {what : String} :
    requireLocOf claims loc what = .ok u ↔ claims.loc = loc := guardOr_ok

theorem assertEach_error {l : List α} {c : α → Prop} {_ : DecidablePred c}
    {m : α → String} {e : Refusal} (h : assertEach l c m = .error e) :
    ∃ a ∈ l, e = ⟨.rule, m a⟩ := by
  obtain ⟨a, ha, h⟩ := checkEach_error h
  exact ⟨a, ha, (guardOr_error.1 h).2.symm⟩

end Accepted

end Rch
