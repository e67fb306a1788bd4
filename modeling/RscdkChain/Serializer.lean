import Mathlib

namespace RscdkChain

/-- How a call that does not return ends: a failed `check` of the vm API, or a Rust panic. -/
inductive Abort
  | check (msg : String)
  | panic
  deriving DecidableEq, Repr

/-- Modelled from the spec: `check(cond, msg)` of the vm API (absent). -/
def check (cond : Prop) [Decidable cond] (msg : String) : Except Abort Unit :=
  if cond then .ok () else .error (.check msg)

@[simp] theorem check_eq_ok {cond : Prop} [Decidable cond] {msg : String} {u : Unit} :
    check cond msg = .ok u ↔ cond := by
  unfold check; split <;> simp_all

@[simp] theorem check_true (msg : String) : check True msg = .ok () := rfl

theorem check_of_pos {cond : Prop} [Decidable cond] (msg : String) (h : cond) :
    check cond msg = .ok () := if_pos h

theorem bind_eq_ok {ε α β : Type} {x : Except ε α} {f : α → Except ε β} {b : β} :
    x >>= f = .ok b ↔ ∃ a, x = .ok a ∧ f a = .ok b := by
  cases x <;> simp [bind, Except.bind]

@[simp] theorem ok_bind {ε α β : Type} (a : α) (f : α → Except ε β) :
    (Except.ok a : Except ε α) >>= f = f a := rfl

@[simp] theorem map_ok {ε α β : Type} (f : α → β) (a : α) :
    (Except.ok a : Except ε α).map f = .ok (f a) := rfl

@[simp] theorem pure_eq_ok {ε α : Type} (a : α) : (pure a : Except ε α) = .ok a := rfl

theorem map_eq_ok {ε α β : Type} {x : Except ε α} {f : α → β} {b : β} :
    x.map f = .ok b ↔ ∃ a, x = .ok a ∧ f a = b := by
  cases x <;> simp [Except.map]

/-- Modelled from the spec: the `Encoder` of serializer.rs (absent), the buffer every `pack`
appends to. -/
structure Encoder where
  buf : List (BitVec 8)
  deriving DecidableEq, Repr

namespace Encoder

def new : Encoder := ⟨[]⟩

def getSize (enc : Encoder) : ℕ := enc.buf.length

def alloc (enc : Encoder) (n : ℕ) : Encoder := ⟨enc.buf ++ List.replicate n 0⟩

def fill (enc : Encoder) (src : List (BitVec 8)) : Encoder :=
  ⟨enc.buf.take (enc.buf.length - src.length) ++ src⟩

@[simp] theorem getSize_eq (enc : Encoder) : enc.getSize = enc.buf.length := rfl

@[simp] theorem new_buf : new.buf = [] := rfl

theorem alloc_fill (enc : Encoder) (src : List (BitVec 8)) :
    (enc.alloc src.length).fill src = ⟨enc.buf ++ src⟩ := by
  simp [alloc, fill, List.take_append_eq_append_take]

end Encoder

/-- Modelled from the spec: the `Packer` trait of serializer.rs (absent). `unpack` reads from the
front of the bytes into the receiver and returns it with the number of bytes consumed. -/
class Packer (α : Type) where
  size : α → ℕ
  pack : α → Encoder → Encoder × ℕ
  unpack : α → List (BitVec 8) → Except Abort (α × ℕ)

def Packer.bytes {α : Type} [Packer α] (x : α) : List (BitVec 8) :=
  (Packer.pack x Encoder.new).1.buf

/-- Modelled from the spec: the `Decoder` of serializer.rs (absent), a cursor over a byte region. -/
structure Decoder where
  buf : List (BitVec 8)
  pos : ℕ

namespace Decoder

def new (buf : List (BitVec 8)) : Decoder := ⟨buf, 0⟩

def getPos (dec : Decoder) : ℕ := dec.pos

def unpack {α : Type} [Packer α] (dec : Decoder) (v : α) : Except Abort (α × Decoder) :=
  if dec.pos ≤ dec.buf.length then
    (Packer.unpack v (dec.buf.drop dec.pos)).map fun r ↦ (r.1, ⟨dec.buf, dec.pos + r.2⟩)
  else .error .panic

end Decoder

end RscdkChain
