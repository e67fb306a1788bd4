import RscdkChain.Number

namespace RscdkChain

namespace VarUint32

def encode : ℕ → ℕ → List (BitVec 8)
  | 0, _ => []
  | k + 1, v =>
    if v < 128 then [BitVec.ofNat 8 v] else BitVec.ofNat 8 (v % 128 + 128) :: encode k (v / 128)

def decode : ℕ → List (BitVec 8) → Option (ℕ × ℕ)
  | 0, _ | _ + 1, [] => none
  | k + 1, b :: bs =>
    if b.toNat < 128 then some (b.toNat, 1)
    else match decode k bs with
      | some (v, n) => if v = 0 then none else some (b.toNat - 128 + 128 * v, n + 1)
      | none => none

theorem encode_of_lt {k v : ℕ} (h : v < 128) : encode (k + 1) v = [BitVec.ofNat 8 v] := by
  simp [encode, h]

theorem encode_of_le {k v : ℕ} (h : 128 ≤ v) :
    encode (k + 1) v = BitVec.ofNat 8 (v % 128 + 128) :: encode k (v / 128) := by
  simp [encode, Nat.not_lt.mpr h]

theorem decode_encode (t : List (BitVec 8)) (k : ℕ) :
    ∀ v, v < 128 ^ (k + 1) →
      decode (k + 1) (encode (k + 1) v ++ t) = some (v, (encode (k + 1) v).length) := by
  induction k with
  | zero =>
    intro v hv
    simp [encode_of_lt (show v < 128 by omega), decode, Nat.mod_eq_of_lt (by omega : v < 256),
      show v < 128 by omega]
  | succ k ih =>
    intro v hv
    by_cases h : v < 128
    · simp [encode_of_lt h, decode, Nat.mod_eq_of_lt (by omega : v < 256), h]
    · have hd := ih (v / 128) (by rw [Nat.pow_succ] at hv; omega)
      have hb : (BitVec.ofNat 8 (v % 128 + 128)).toNat = v % 128 + 128 := by simp; omega
      rw [encode_of_le (by omega), List.cons_append]
      simp only [decode, hb, hd, if_neg (show ¬v % 128 + 128 < 128 by omega),
        if_neg (show v / 128 ≠ 0 by omega), List.length_cons, Option.some.injEq, Prod.mk.injEq,
        and_true]
      omega

theorem encode_decode : ∀ (k : ℕ) {b : List (BitVec 8)} {v n : ℕ}, decode k b = some (v, n) →
    ∃ t, b = encode k v ++ t ∧ n = (encode k v).length
  | 0, _, _, _, h => by simp [decode] at h
  | k + 1, [], _, _, h => by simp [decode] at h
  | k + 1, c :: bs, v, n, h => by
    have hc := c.isLt
    simp only [decode] at h
    split at h
    · next hlt =>
      obtain ⟨rfl, rfl⟩ := Prod.mk.inj (Option.some.inj h)
      exact ⟨bs, by simp [encode_of_lt hlt], by simp [encode_of_lt hlt]⟩
    · split at h
      · next v' n' hd =>
        split at h
        · cases h
        · obtain ⟨rfl, rfl⟩ := Prod.mk.inj (Option.some.inj h)
          obtain ⟨t, rfl, rfl⟩ := encode_decode k hd
          have he := encode_of_le (k := k) (show 128 ≤ c.toNat - 128 + 128 * v' by omega)
          rw [show (c.toNat - 128 + 128 * v') / 128 = v' by omega,
            show (c.toNat - 128 + 128 * v') % 128 + 128 = c.toNat by omega,
            BitVec.ofNat_toNat, BitVec.setWidth_eq] at he
          exact ⟨t, by simp [he], by simp [he]⟩
      · cases h

/-- A canonical LEB128 Packer for `VarUint32`: `pack` writes the shortest form, and `unpack`
accepts only the shortest form of a `u32`. -/
def leb128 : Packer VarUint32 where
  size x := (encode 5 x.n.toNat).length
  pack x enc := (⟨enc.buf ++ encode 5 x.n.toNat⟩, (encode 5 x.n.toNat).length)
  unpack _ data :=
    match decode 5 data with
    | some (v, n) => if v < 2 ^ 32 then .ok (⟨BitVec.ofNat 32 v⟩, n) else .error (.check "overflow")
    | none => .error (.check "bad varuint32")

section Leb128

attribute [local instance] leb128

theorem leb128_bytes (x : VarUint32) : Packer.bytes x = encode 5 x.n.toNat := by
  simp [Packer.bytes, Packer.pack, leb128]

theorem leb128_lawful : Lawful VarUint32 Packer.bytes where
  packsAs x enc := by simp [leb128_bytes, Packer.pack, leb128]
  sizedAs x := by simp [leb128_bytes, Packer.size, leb128]
  readsBack x t _ := by
    have hx := x.n.isLt
    simp only [Packer.unpack, leb128_bytes, decode_encode t 4 x.n.toNat (by omega), hx,
      if_pos, BitVec.ofNat_toNat, BitVec.setWidth_eq]
  canonical b v n h := by
    simp only [Packer.unpack, leb128] at h
    split at h
    · next v' n' hd =>
      split at h
      · next hv =>
        simp only [Except.ok.injEq, Prod.mk.injEq] at h
        obtain ⟨rfl, rfl⟩ := h
        obtain ⟨t, rfl, rfl⟩ := encode_decode 5 hd
        have hn : (BitVec.ofNat 32 v').toNat = v' := by
          rw [BitVec.toNat_ofNat]; exact Nat.mod_eq_of_lt hv
        exact ⟨t, by rw [leb128_bytes, hn], by rw [leb128_bytes, hn]⟩
      · cases h
    · cases h
  overwrites _ _ := rfl

end Leb128

end VarUint32

end RscdkChain
