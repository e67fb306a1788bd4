import RscdkChain.Laws

namespace RscdkChain

def le : ℕ → ℕ → List (BitVec 8)
  | 0, _ => []
  | k + 1, v => BitVec.ofNat 8 v :: le k (v / 256)

def leValue : List (BitVec 8) → ℕ
  | [] => 0
  | b :: bs => b.toNat + 256 * leValue bs

@[simp] theorem length_le (k v : ℕ) : (le k v).length = k := by
  induction k generalizing v <;> simp [le, *]

@[simp] theorem le_one_toNat (b : BitVec 8) : le 1 b.toNat = [b] := by
  simp [le]

theorem leValue_le (k v : ℕ) : leValue (le k v) = v % 256 ^ k := by
  induction k generalizing v with
  | zero => simp [le, leValue, Nat.mod_one]
  | succ k ih => simp [le, leValue, ih, Nat.pow_succ', Nat.mod_mul]

theorem le_leValue (bs : List (BitVec 8)) : le bs.length (leValue bs) = bs := by
  induction bs with
  | nil => rfl
  | cons b bs ih =>
    have hb := b.isLt
    simp only [List.length_cons, le, leValue, List.cons.injEq]
    refine ⟨BitVec.eq_of_toNat_eq (by simp; omega), ?_⟩
    rw [show (b.toNat + 256 * leValue bs) / 256 = leValue bs by omega, ih]

theorem leValue_lt (bs : List (BitVec 8)) : leValue bs < 256 ^ bs.length := by
  induction bs with
  | nil => simp [leValue]
  | cons b bs ih =>
    have hb := b.isLt
    simp only [leValue, List.length_cons, Nat.pow_succ']
    omega

theorem two_pow_eq (k : ℕ) : 2 ^ (8 * k) = 256 ^ k := by
  rw [Nat.pow_mul]

/-- Modelled from the spec: the Packer `impl_packed!` gives each fixed-width integer
(serializer.rs, absent): its `k` bytes, little-endian (§4.3, §6). -/
def numPacker (k : ℕ) : Packer (BitVec (8 * k)) where
  size _ := k
  pack x enc := ((enc.alloc k).fill (le k x.toNat), k)
  unpack _ data :=
    if k ≤ data.length then .ok (BitVec.ofNat (8 * k) (leValue (data.take k)), k)
    else .error (.check "number: buffer overflow")

instance : Packer (BitVec 8) := numPacker 1
instance : Packer (BitVec 16) := numPacker 2
instance : Packer (BitVec 32) := numPacker 4
instance : Packer (BitVec 64) := numPacker 8
instance : Packer (BitVec 128) := numPacker 16

section Num

variable (k : ℕ)

attribute [local instance] numPacker

theorem numPacker_packsAs :
    PacksAs fun x : BitVec (8 * k) ↦ le k x.toNat := by
  intro x enc
  have h := Encoder.alloc_fill enc (le k x.toNat)
  simp only [length_le] at h
  simp [Packer.pack, numPacker, h]

theorem numPacker_sizedAs : SizedAs fun x : BitVec (8 * k) ↦ le k x.toNat := by
  intro x; simp [Packer.size, numPacker]

theorem numPacker_readsBack :
    ReadsBack (fun x : BitVec (8 * k) ↦ le k x.toNat) fun _ ↦ True := by
  intro x t _
  have hx : x.toNat < 256 ^ k := two_pow_eq k ▸ x.isLt
  simp [Packer.unpack, numPacker, List.take_left' (length_le k _), leValue_le,
    Nat.mod_eq_of_lt hx]

theorem numPacker_canonical :
    Canonical fun x : BitVec (8 * k) ↦ le k x.toNat := by
  intro b v n h
  simp only [Packer.unpack, numPacker] at h
  split at h
  · next hk =>
    simp only [Except.ok.injEq, Prod.mk.injEq] at h
    obtain ⟨rfl, rfl⟩ := h
    have hlt : leValue (b.take k) < 2 ^ (8 * k) := by
      simpa [two_pow_eq, List.length_take_of_le hk] using leValue_lt (b.take k)
    refine ⟨b.drop k, ?_, by simp⟩
    have hle := le_leValue (b.take k)
    rw [List.length_take_of_le hk] at hle
    simp only [BitVec.toNat_ofNat, Nat.mod_eq_of_lt hlt, hle, List.take_append_drop]
  · cases h

theorem numPacker_overwrites : Overwrites (BitVec (8 * k)) := fun _ _ ↦ rfl

theorem numPacker_lawful : Lawful (BitVec (8 * k)) fun x : BitVec (8 * k) ↦ le k x.toNat :=
  ⟨numPacker_packsAs k, numPacker_sizedAs k, numPacker_readsBack k, numPacker_canonical k,
    numPacker_overwrites k⟩

end Num

theorem u8_lawful : Lawful (BitVec 8) fun x ↦ le 1 x.toNat := numPacker_lawful 1
theorem u16_lawful : Lawful (BitVec 16) fun x ↦ le 2 x.toNat := numPacker_lawful 2
theorem u32_lawful : Lawful (BitVec 32) fun x ↦ le 4 x.toNat := numPacker_lawful 4
theorem u64_lawful : Lawful (BitVec 64) fun x ↦ le 8 x.toNat := numPacker_lawful 8
theorem u128_lawful : Lawful (BitVec 128) fun x ↦ le 16 x.toNat := numPacker_lawful 16

theorem u8_unpack_after (r b : BitVec 8) (pre t : List (BitVec 8)) :
    (Decoder.after pre (b :: t)).unpack r = .ok (b, Decoder.after (pre ++ [b]) t) := by
  rw [Decoder.unpack_overwrites u8_lawful.overwrites]
  have h : (Decoder.after pre (le 1 b.toNat ++ t)).unpack (default : BitVec 8) =
      .ok (b, Decoder.after (pre ++ le 1 b.toNat) t) :=
    Decoder.unpack_after_readsBack u8_lawful.readsBack trivial rfl pre t
  simpa using h

theorem u8_unpack_after_eq_ok {r b : BitVec 8} {pre rest : List (BitVec 8)} {dec : Decoder}
    (h : (Decoder.after pre rest).unpack r = .ok (b, dec)) :
    ∃ t, rest = b :: t ∧ dec = Decoder.after (pre ++ [b]) t := by
  rw [Decoder.unpack_overwrites u8_lawful.overwrites] at h
  simpa using Decoder.unpack_after_canonical u8_lawful.canonical rfl h

/-- Modelled from the spec: `VarUint32` of varint.rs (absent). Its Packer is an external
collaborator (§6) and enters every result as a hypothesis. -/
structure VarUint32 where
  n : BitVec 32
  deriving DecidableEq, Repr

instance : Inhabited VarUint32 := ⟨⟨0⟩⟩

def VarUint32.new (n : BitVec 32) : VarUint32 := ⟨n⟩

def VarUint32.value (v : VarUint32) : BitVec 32 := v.n

@[simp] theorem VarUint32.new_value (v : VarUint32) : VarUint32.new v.value = v := rfl

theorem VarUint32.value_new_ofNat {n : ℕ} (h : n < 2 ^ 32) :
    (VarUint32.new (BitVec.ofNat 32 n)).value.toNat = n := by
  simp only [VarUint32.new, VarUint32.value, BitVec.toNat_ofNat]
  exact Nat.mod_eq_of_lt h

/-- Modelled from the spec: `Name` of name.rs (absent), an account name, packed as its 64-bit
value (8 bytes, §3). -/
structure Name where
  n : BitVec 64
  deriving DecidableEq, Repr

instance : Inhabited Name := ⟨⟨0⟩⟩

instance : Packer Name where
  size _ := 8
  pack x enc := Packer.pack x.n enc
  unpack self raw := (Packer.unpack self.n raw).map fun r ↦ (⟨r.1⟩, r.2)

def Name.wire (x : Name) : List (BitVec 8) := le 8 x.n.toNat

theorem Name.lawful : Lawful Name Name.wire where
  packsAs x enc := u64_lawful.packsAs x.n enc
  sizedAs _ := rfl
  readsBack x t _ := by
    simp [Packer.unpack, u64_lawful.overwrites (default : Name).n,
      u64_lawful.readsBack x.n t trivial, wire]
  canonical b v n h := by
    obtain ⟨⟨m, n'⟩, hm, he⟩ := map_eq_ok.mp h
    obtain ⟨t, rfl, rfl⟩ :=
      u64_lawful.canonical b m n' (u64_lawful.overwrites (default : Name).n b ▸ hm)
    simp only [Prod.mk.injEq] at he
    obtain ⟨rfl, rfl⟩ := he
    exact ⟨t, rfl, rfl⟩
  overwrites _ _ := rfl

end RscdkChain
