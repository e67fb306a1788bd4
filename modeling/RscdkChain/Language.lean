import RscdkChain.Format

namespace RscdkChain

namespace StructType

section Accept

variable [Packer VarUint32] (hvp : PacksAs (α := VarUint32) Packer.bytes)
  (hvr : ReadsBack (α := VarUint32) Packer.bytes fun _ ↦ True)
  (hvc : Canonical (α := VarUint32) Packer.bytes)

include hvp hvr hvc in
/-- A default receiver returns `(v, n)` exactly when `v` is valid and the bytes start with the
packing of `v`, of length `n`. -/
theorem unpack_eq_ok_iff (t : StructType) (b : List (BitVec 8)) (v : t.denote) (n : ℕ) :
    Packer.unpack (default : t.denote) b = .ok (v, n) ↔
      t.Valid v ∧ ∃ tl, b = Packer.bytes v ++ tl ∧ n = (Packer.bytes v).length := by
  rw [(packsAs hvp t).bytes]
  refine ⟨fun h ↦ ⟨decodesValid t b v n h, canonical hvc t b v n h⟩, ?_⟩
  rintro ⟨hv, tl, rfl, rfl⟩
  exact readsBack hvr t v tl hv

include hvp hvr in
/-- A byte string starts with the packing of at most one valid value. -/
theorem pack_prefix_unique (t : StructType) {x y : t.denote} (hx : t.Valid x) (hy : t.Valid y)
    {s s' : List (BitVec 8)} (h : Packer.bytes x ++ s = Packer.bytes y ++ s') :
    x = y ∧ s = s' := by
  rw [(packsAs hvp t).bytes, (packsAs hvp t).bytes] at h
  have hxy : (.ok (x, (t.wire x).length) : Except Abort _) = .ok (y, (t.wire y).length) := by
    rw [← readsBack hvr t x s hx, ← readsBack hvr t y s' hy, h]
  obtain ⟨rfl, -⟩ := Prod.mk.inj (Except.ok.inj hxy)
  exact ⟨rfl, List.append_cancel_left h⟩

end Accept

section

attribute [local instance] VarUint32.leb128

theorem unpack_eq_ok_iff_userPresence :
    Packer.unpack (default : UserPresence) [1, 9] = .ok (.present, 1) ↔
      userPresence.Valid UserPresence.present ∧
        ∃ tl, [1, 9] = Packer.bytes UserPresence.present ++ tl ∧
          1 = (Packer.bytes UserPresence.present).length :=
  unpack_eq_ok_iff VarUint32.leb128_lawful.packsAs VarUint32.leb128_lawful.readsBack
    VarUint32.leb128_lawful.canonical userPresence [1, 9] UserPresence.present 1

theorem pack_prefix_unique_authority :
    (⟨7, []⟩ : BlockSigningAuthorityV0) = ⟨7, []⟩ ∧ ([3] : List (BitVec 8)) = [3] :=
  pack_prefix_unique VarUint32.leb128_lawful.packsAs VarUint32.leb128_lawful.readsBack
    blockSigningAuthorityV0 (x := ⟨7, []⟩) (y := ⟨7, []⟩) (by decide) (by decide) rfl

end

end StructType

end RscdkChain
