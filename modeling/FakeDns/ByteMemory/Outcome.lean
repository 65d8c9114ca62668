import Mathlib.Data.List.Range

/-! Functions that may go wrong. A function of a C program succeeds, gives up with an error
code, or goes wrong: it touches a byte outside the object at hand, or never comes to an
end. That it never goes wrong is a theorem about it. -/

namespace ByteMemory

inductive Outcome (ε α : Type) where
  | fault
  | fail (e : ε)
  | ok (a : α)
deriving DecidableEq

namespace Outcome

variable {ε α β : Type}

protected def bind (x : Outcome ε α) (f : α → Outcome ε β) : Outcome ε β :=
  match x with
  | fault => fault
  | fail e => fail e
  | ok a => f a

instance : Monad (Outcome ε) where
  pure := ok
  bind := Outcome.bind

@[simp] theorem pure_eq (a : α) : (pure a : Outcome ε α) = ok a := rfl

@[simp] theorem bind_fault (f : α → Outcome ε β) : (fault >>= f) = fault := rfl

@[simp] theorem bind_fail (e : ε) (f : α → Outcome ε β) : (fail e >>= f) = fail e := rfl

@[simp] theorem bind_ok (a : α) (f : α → Outcome ε β) : (ok a >>= f) = f a := rfl

end Outcome

/-- Read the byte at place `i` of an object. -/
def byteAt {ε : Type} (bs : List UInt8) (i : ℕ) : Outcome ε UInt8 :=
  match bs[i]? with
  | none => .fault
  | some b => .ok b

variable {ε : Type} {bs : List UInt8} {i : ℕ} {b : UInt8}

theorem byteAt_eq_ok : (byteAt bs i : Outcome ε UInt8) = .ok b ↔ bs[i]? = some b := by
  unfold byteAt
  split <;> simp_all

theorem byteAt_of_lt (h : i < bs.length) : (byteAt bs i : Outcome ε UInt8) = .ok bs[i] :=
  byteAt_eq_ok.mpr (List.getElem?_eq_getElem h)

end ByteMemory
