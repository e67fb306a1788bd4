import RscdkChain.Format

namespace RscdkChain

abbrev Item := Σ t : StructType, t.denote

section Model

variable [Packer VarUint32]

def packAll (xs : List Item) (enc : Encoder) : Encoder :=
  xs.foldl (fun enc x ↦ (Packer.pack x.2 enc).1) enc

def unpackAll : List StructType → Decoder → Except Abort (List Item × Decoder)
  | [], dec => .ok ([], dec)
  | t :: ts, dec => do
    let (v, dec) ← dec.unpack (default : t.denote)
    let (vs, dec) ← unpackAll ts dec
    pure (⟨t, v⟩ :: vs, dec)

def itemsWire (xs : List Item) : List (BitVec 8) := xs.flatMap fun x ↦ x.1.wire x.2

section Laws

variable (hvp : PacksAs (α := VarUint32) Packer.bytes)
  (hvr : ReadsBack (α := VarUint32) Packer.bytes fun _ ↦ True)
  (hvc : Canonical (α := VarUint32) Packer.bytes)

include hvp in
theorem packAll_eq (xs : List Item) (enc : Encoder) :
    packAll xs enc = ⟨enc.buf ++ itemsWire xs⟩ := by
  induction xs generalizing enc with
  | nil => simp [packAll, itemsWire]
  | cons x xs ih =>
    simp only [packAll, List.foldl_cons] at ih ⊢
    rw [StructType.packsAs hvp x.1 x.2 enc, ih]
    simp [itemsWire]

include hvr in
theorem unpackAll_after (xs : List Item) (hx : ∀ x ∈ xs, x.1.Valid x.2)
    (pre t : List (BitVec 8)) :
    unpackAll (xs.map Sigma.fst) (Decoder.after pre (itemsWire xs ++ t)) =
      .ok (xs, Decoder.after (pre ++ itemsWire xs) t) := by
  induction xs generalizing pre with
  | nil => simp [unpackAll, itemsWire]
  | cons x xs ih =>
    simp only [List.map_cons, unpackAll, itemsWire, List.flatMap_cons, List.append_assoc,
      Decoder.unpack_after_readsBack (StructType.readsBack hvr x.1) (hx x (List.mem_cons_self _ _))
        rfl, ok_bind]
    rw [show xs.flatMap (fun x ↦ x.1.wire x.2) = itemsWire xs from rfl,
      ih (fun y hy ↦ hx y (List.mem_cons_of_mem x hy))]
    simp [itemsWire]

include hvc in
theorem unpackAll_canonical :
    ∀ (ts : List StructType) {pre rest : List (BitVec 8)} {xs : List Item} {dec : Decoder},
      unpackAll ts (Decoder.after pre rest) = .ok (xs, dec) →
        xs.map Sigma.fst = ts ∧ ∃ t, rest = itemsWire xs ++ t ∧
          dec = Decoder.after (pre ++ itemsWire xs) t
  | [], pre, rest, xs, dec, h => by
    simp only [unpackAll, Except.ok.injEq, Prod.mk.injEq] at h
    obtain ⟨rfl, rfl⟩ := h
    exact ⟨rfl, rest, by simp [itemsWire], by simp [itemsWire]⟩
  | t :: ts, pre, rest, xs, dec, h => by
    simp only [unpackAll, bind_eq_ok] at h
    obtain ⟨⟨v, dec₁⟩, hv, ⟨vs, dec₂⟩, hvs, h⟩ := h
    obtain ⟨t₁, rfl, rfl⟩ := Decoder.unpack_after_canonical (StructType.canonical hvc t) rfl hv
    obtain ⟨hts, t₂, rfl, rfl⟩ := unpackAll_canonical ts hvs
    simp only [pure_eq_ok, Except.ok.injEq, Prod.mk.injEq] at h
    obtain ⟨rfl, rfl⟩ := h
    exact ⟨by simp [hts], t₂, by simp [itemsWire], by simp [itemsWire]⟩

end Laws

end Model

section RoundTrip

variable [Packer VarUint32] (hvp : PacksAs (α := VarUint32) Packer.bytes)
  (hvr : ReadsBack (α := VarUint32) Packer.bytes fun _ ↦ True)

include hvp hvr in
/-- Values packed one after another are read back in order by one decoder, which then stands
right after them. -/
theorem unpackAll_packAll (xs : List Item) (hx : ∀ x ∈ xs, x.1.Valid x.2) (enc : Encoder)
    (tail : List (BitVec 8)) :
    ∃ bs, (packAll xs enc).buf = enc.buf ++ bs ∧
      unpackAll (xs.map Sigma.fst) (Decoder.new (bs ++ tail)) = .ok (xs, Decoder.after bs tail) :=
  ⟨itemsWire xs, by rw [packAll_eq hvp], by
    simpa using unpackAll_after hvr xs hx [] tail⟩

end RoundTrip

section

attribute [local instance] VarUint32.leb128

theorem unpackAll_packAll_presence_seconds :
    ∃ bs, (packAll [⟨.userPresence, UserPresence.present⟩, ⟨.timePointSec, ⟨5⟩⟩] Encoder.new).buf =
        Encoder.new.buf ++ bs ∧
      unpackAll [.userPresence, .timePointSec] (Decoder.new (bs ++ [])) =
        .ok ([⟨.userPresence, UserPresence.present⟩, ⟨.timePointSec, ⟨5⟩⟩], Decoder.after bs []) :=
  unpackAll_packAll VarUint32.leb128_lawful.packsAs VarUint32.leb128_lawful.readsBack
    [⟨.userPresence, UserPresence.present⟩, ⟨.timePointSec, ⟨5⟩⟩] (by decide)
    Encoder.new []

end

section Canonical

variable [Packer VarUint32] (hvp : PacksAs (α := VarUint32) Packer.bytes)
  (hvc : Canonical (α := VarUint32) Packer.bytes)

include hvp hvc in
/-- A decoder reading values of the given types has read exactly their packing. -/
theorem unpackAll_eq_ok_pack (ts : List StructType) {b : List (BitVec 8)} {xs : List Item}
    {dec : Decoder} (h : unpackAll ts (Decoder.new b) = .ok (xs, dec)) (enc : Encoder) :
    xs.map Sigma.fst = ts ∧ dec.getPos ≤ b.length ∧
      (packAll xs enc).buf = enc.buf ++ b.take dec.getPos := by
  rw [Decoder.new_eq] at h
  obtain ⟨hts, t, rfl, rfl⟩ := unpackAll_canonical hvc ts h
  exact ⟨hts, by simp, by simp [packAll_eq hvp]⟩

end Canonical

section

attribute [local instance] VarUint32.leb128

theorem unpackAll_eq_ok_pack_presence :
    [(⟨.userPresence, UserPresence.verified⟩ : Item)].map Sigma.fst = [.userPresence] ∧
      (Decoder.after [2] [7]).getPos ≤ [2, 7].length ∧
      (packAll [⟨.userPresence, UserPresence.verified⟩] Encoder.new).buf =
        Encoder.new.buf ++ [2, 7].take (Decoder.after [2] [7]).getPos :=
  unpackAll_eq_ok_pack VarUint32.leb128_lawful.packsAs VarUint32.leb128_lawful.canonical
    [.userPresence] (b := [2, 7]) rfl Encoder.new

end

end RscdkChain
