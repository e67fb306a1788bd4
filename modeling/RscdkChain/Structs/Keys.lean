import RscdkChain.Structs.Fixed

namespace RscdkChain

structure WebAuthNPublicKey where
  key : ECCPublicKey
  userPresence : UserPresence
  rpid : RustString
  deriving DecidableEq

instance : Inhabited WebAuthNPublicKey := ⟨⟨default, default, default⟩⟩

inductive PublicKey
  | k1 (key : ECCPublicKey)
  | r1 (key : ECCPublicKey)
  | webAuth (key : WebAuthNPublicKey)
  deriving DecidableEq

instance : Inhabited PublicKey := ⟨.k1 default⟩

def WebAuthNPublicKey.Valid (x : WebAuthNPublicKey) : Prop := x.rpid.Valid

def PublicKey.Valid : PublicKey → Prop
  | .webAuth x => x.Valid
  | _ => True

instance : DecidablePred WebAuthNPublicKey.Valid := fun x ↦ inferInstanceAs (Decidable x.rpid.Valid)

instance : DecidablePred PublicKey.Valid
  | .k1 _ | .r1 _ => inferInstanceAs (Decidable True)
  | .webAuth x => inferInstanceAs (Decidable x.Valid)

variable [Packer VarUint32]

def WebAuthNPublicKey.size (x : WebAuthNPublicKey) : ℕ :=
  Packer.size x.key + Packer.size x.userPresence + Packer.size x.rpid

def WebAuthNPublicKey.pack (x : WebAuthNPublicKey) (enc : Encoder) : Encoder × ℕ :=
  let pos := enc.getSize
  let enc := (Packer.pack x.key enc).1
  let enc := (Packer.pack x.userPresence enc).1
  let enc := (Packer.pack x.rpid enc).1
  (enc, enc.getSize - pos)

def WebAuthNPublicKey.unpack (self : WebAuthNPublicKey) (data : List (BitVec 8)) :
    Except Abort (WebAuthNPublicKey × ℕ) := do
  check (33 ≤ data.length) "WebAuthNPublicKey.unpack: buffer overflow!"
  let dec := Decoder.new data
  let (key, dec) ← dec.unpack self.key
  let (userPresence, dec) ← dec.unpack self.userPresence
  let (rpid, dec) ← dec.unpack self.rpid
  pure ({ key, userPresence, rpid }, dec.getPos)

instance : Packer WebAuthNPublicKey :=
  ⟨WebAuthNPublicKey.size, WebAuthNPublicKey.pack, WebAuthNPublicKey.unpack⟩

def PublicKey.size : PublicKey → ℕ
  | .k1 x => Packer.size x + 1
  | .r1 x => Packer.size x + 1
  | .webAuth x => Packer.size x + 1

def PublicKey.pack (x : PublicKey) (enc : Encoder) : Encoder × ℕ :=
  let pos := enc.getSize
  let enc := match x with
    | .k1 x => (Packer.pack x (Packer.pack (0 : BitVec 8) enc).1).1
    | .r1 x => (Packer.pack x (Packer.pack (1 : BitVec 8) enc).1).1
    | .webAuth x => (Packer.pack x (Packer.pack (2 : BitVec 8) enc).1).1
  (enc, enc.getSize - pos)

def PublicKey.unpack (_ : PublicKey) (raw : List (BitVec 8)) : Except Abort (PublicKey × ℕ) := do
  check (34 ≤ raw.length) "PublicKey.unpack: buffer overflow!"
  let dec := Decoder.new raw
  let (ty, dec) ← dec.unpack (0 : BitVec 8)
  match ty.toNat with
  | 0 =>
    let (pubKey, dec) ← dec.unpack (default : ECCPublicKey)
    pure (.k1 pubKey, dec.getPos)
  | 1 =>
    let (pubKey, dec) ← dec.unpack (default : ECCPublicKey)
    pure (.r1 pubKey, dec.getPos)
  | 2 =>
    let (pubKey, dec) ← dec.unpack (default : WebAuthNPublicKey)
    pure (.webAuth pubKey, dec.getPos)
  | _ => .error (.check "invalid public key type")

instance : Packer PublicKey := ⟨PublicKey.size, PublicKey.pack, PublicKey.unpack⟩

def WebAuthNPublicKey.wire (x : WebAuthNPublicKey) : List (BitVec 8) :=
  x.key.wire ++ x.userPresence.wire ++ x.rpid.wire

def PublicKey.wire : PublicKey → List (BitVec 8)
  | .k1 x => [0] ++ x.wire
  | .r1 x => [1] ++ x.wire
  | .webAuth x => [2] ++ x.wire

theorem WebAuthNPublicKey.length_wire (x : WebAuthNPublicKey) : 34 ≤ x.wire.length := by
  simp [wire]; omega

section WebAuthN

open WebAuthNPublicKey

theorem WebAuthNPublicKey.packsAs (hvp : PacksAs (α := VarUint32) Packer.bytes) :
    PacksAs WebAuthNPublicKey.wire := by
  intro x enc
  show x.pack enc = _
  simp [WebAuthNPublicKey.pack, ECCPublicKey.lawful.packsAs _ _, UserPresence.lawful.packsAs _ _,
    RustString.packsAs hvp _ _, wire]

theorem WebAuthNPublicKey.sizedAs (hvs : SizedAs (α := VarUint32) Packer.bytes) :
    SizedAs WebAuthNPublicKey.wire := by
  intro x
  show x.size = _
  simp [WebAuthNPublicKey.size, ECCPublicKey.lawful.sizedAs _, UserPresence.lawful.sizedAs _,
    RustString.sizedAs hvs _, wire]
  omega

theorem WebAuthNPublicKey.readsBack (hvr : ReadsBack (α := VarUint32) Packer.bytes fun _ ↦ True) :
    ReadsBack WebAuthNPublicKey.wire WebAuthNPublicKey.Valid := by
  intro x t hx
  have hl : 33 ≤ (x.wire ++ t).length := by
    have := x.length_wire; simp only [List.length_append]; omega
  show unpack default (x.wire ++ t) = _
  have hk : (default : WebAuthNPublicKey).key = default := rfl
  have hu : (default : WebAuthNPublicKey).userPresence = default := rfl
  have hs : (default : WebAuthNPublicKey).rpid = default := rfl
  simp only [unpack, check_of_pos _ hl, ok_bind, Decoder.new_eq, wire, List.append_assoc,
    Decoder.unpack_after_readsBack ECCPublicKey.lawful.readsBack trivial hk,
    Decoder.unpack_after_readsBack UserPresence.lawful.readsBack trivial hu,
    Decoder.unpack_after_readsBack (RustString.readsBack hvr) hx hs, pure_eq_ok,
    Decoder.getPos_after]
  simp

theorem WebAuthNPublicKey.canonical (hvc : Canonical (α := VarUint32) Packer.bytes) :
    Canonical WebAuthNPublicKey.wire := by
  intro b v n h
  change unpack default b = _ at h
  simp only [unpack, bind_eq_ok, Decoder.new_eq] at h
  obtain ⟨_, -, ⟨k, dec₁⟩, hk, ⟨u, dec₂⟩, hu, ⟨s, dec₃⟩, hs, h⟩ := h
  obtain ⟨t₁, rfl, rfl⟩ := Decoder.unpack_after_canonical ECCPublicKey.lawful.canonical rfl hk
  obtain ⟨t₂, rfl, rfl⟩ := Decoder.unpack_after_canonical UserPresence.lawful.canonical rfl hu
  obtain ⟨t₃, rfl, rfl⟩ := Decoder.unpack_after_canonical (RustString.canonical hvc) rfl hs
  simp only [pure_eq_ok, Except.ok.injEq, Prod.mk.injEq, Decoder.getPos_after] at h
  obtain ⟨rfl, rfl⟩ := h
  exact ⟨t₃, by simp [wire], by simp [wire]⟩

theorem WebAuthNPublicKey.decodesValid : DecodesValid WebAuthNPublicKey.Valid := by
  intro b v n h
  change unpack default b = _ at h
  simp only [unpack, bind_eq_ok] at h
  obtain ⟨_, -, ⟨k, dec₁⟩, -, ⟨u, dec₂⟩, -, ⟨s, dec₃⟩, hs, h⟩ := h
  simp only [pure_eq_ok, Except.ok.injEq, Prod.mk.injEq] at h
  obtain ⟨rfl, -⟩ := h
  exact Decoder.unpack_decodesValid RustString.decodesValid rfl hs

end WebAuthN

section PublicKey

open PublicKey

theorem PublicKey.packsAs (hvp : PacksAs (α := VarUint32) Packer.bytes) :
    PacksAs PublicKey.wire := by
  intro x enc
  show x.pack enc = _
  cases x <;> simp [PublicKey.pack, u8_lawful.packsAs _ _, ECCPublicKey.lawful.packsAs _ _,
    WebAuthNPublicKey.packsAs hvp _ _, wire, le]

theorem PublicKey.sizedAs (hvs : SizedAs (α := VarUint32) Packer.bytes) :
    SizedAs PublicKey.wire := by
  intro x
  show x.size = _
  cases x <;> simp [PublicKey.size, ECCPublicKey.lawful.sizedAs _,
    WebAuthNPublicKey.sizedAs hvs _, wire, Nat.add_comm]

theorem PublicKey.readsBack (hvr : ReadsBack (α := VarUint32) Packer.bytes fun _ ↦ True) :
    ReadsBack PublicKey.wire PublicKey.Valid := by
  intro x t hx
  show unpack default (x.wire ++ t) = _
  cases x with
  | k1 k | r1 k =>
    simp [unpack, wire, u8_unpack_after,
      Decoder.unpack_after_readsBack ECCPublicKey.lawful.readsBack trivial rfl]
  | webAuth w =>
    have hl := w.length_wire
    simp only [unpack, wire, List.singleton_append, List.cons_append, List.length_cons,
      List.length_append]
    rw [check_of_pos _ (by omega)]
    simp [u8_unpack_after,
      Decoder.unpack_after_readsBack (WebAuthNPublicKey.readsBack hvr) hx rfl]

theorem PublicKey.canonical (hvc : Canonical (α := VarUint32) Packer.bytes) :
    Canonical PublicKey.wire := by
  intro b v n h
  change unpack default b = _ at h
  simp only [unpack, bind_eq_ok, Decoder.new_eq] at h
  obtain ⟨_, -, ⟨ty, dec₁⟩, hty, h⟩ := h
  obtain ⟨t₁, rfl, rfl⟩ := u8_unpack_after_eq_ok hty
  split at h
  case h_4 => cases h
  all_goals
    rename_i h₀
    simp only at h₀
    simp only [bind_eq_ok, pure_eq_ok, Except.ok.injEq, Prod.mk.injEq] at h
    obtain ⟨⟨k, dec₂⟩, hk, rfl, rfl⟩ := h
    -- the arms 0 and 1 hold an `ECCPublicKey`, the arm 2 a `WebAuthNPublicKey`
    first
      | obtain ⟨t₂, rfl, rfl⟩ :=
          Decoder.unpack_after_canonical ECCPublicKey.lawful.canonical rfl hk
      | obtain ⟨t₂, rfl, rfl⟩ :=
          Decoder.unpack_after_canonical (WebAuthNPublicKey.canonical hvc) rfl hk
    exact ⟨t₂, by simp [wire, BitVec.eq_ofNat_of_toNat_eq h₀], by simp [wire]⟩

theorem PublicKey.decodesValid : DecodesValid PublicKey.Valid := by
  intro b v n h
  change unpack default b = _ at h
  simp only [unpack, bind_eq_ok] at h
  obtain ⟨_, -, ⟨ty, dec₁⟩, -, h⟩ := h
  split at h
  case h_4 => cases h
  all_goals
    simp only [bind_eq_ok, pure_eq_ok, Except.ok.injEq, Prod.mk.injEq] at h
    obtain ⟨⟨k, dec₂⟩, hk, rfl, -⟩ := h
  · trivial
  · trivial
  · exact Decoder.unpack_decodesValid WebAuthNPublicKey.decodesValid rfl hk

end PublicKey

end RscdkChain
