import RscdkChain.Structs.Keys

namespace RscdkChain

structure ProducerKey where
  producerName : Name
  blockSigningKey : PublicKey
  deriving DecidableEq

structure KeyWeight where
  key : PublicKey
  weight : BitVec 16
  deriving DecidableEq

structure BlockSigningAuthorityV0 where
  threshold : BitVec 32
  keys : List KeyWeight
  deriving DecidableEq

inductive BlockSigningAuthority
  | v0 (x : BlockSigningAuthorityV0)
  deriving DecidableEq

structure ProducerAuthority where
  producerName : Name
  authority : BlockSigningAuthority
  deriving DecidableEq

instance : Inhabited ProducerKey := ⟨⟨default, default⟩⟩
instance : Inhabited KeyWeight := ⟨⟨default, 0⟩⟩
instance : Inhabited BlockSigningAuthorityV0 := ⟨⟨0, []⟩⟩
instance : Inhabited BlockSigningAuthority := ⟨.v0 default⟩
instance : Inhabited ProducerAuthority := ⟨⟨default, default⟩⟩

def ProducerKey.Valid (x : ProducerKey) : Prop := x.blockSigningKey.Valid
def KeyWeight.Valid (x : KeyWeight) : Prop := x.key.Valid
def BlockSigningAuthorityV0.Valid (x : BlockSigningAuthorityV0) : Prop :=
  ListValid KeyWeight.Valid x.keys
def BlockSigningAuthority.Valid : BlockSigningAuthority → Prop
  | .v0 x => x.Valid
def ProducerAuthority.Valid (x : ProducerAuthority) : Prop := x.authority.Valid

instance : DecidablePred ProducerKey.Valid :=
  fun x ↦ inferInstanceAs (Decidable x.blockSigningKey.Valid)
instance : DecidablePred KeyWeight.Valid := fun x ↦ inferInstanceAs (Decidable x.key.Valid)
instance : DecidablePred BlockSigningAuthorityV0.Valid :=
  fun x ↦ inferInstanceAs (Decidable (ListValid KeyWeight.Valid x.keys))
instance : DecidablePred BlockSigningAuthority.Valid
  | .v0 x => inferInstanceAs (Decidable x.Valid)
instance : DecidablePred ProducerAuthority.Valid :=
  fun x ↦ inferInstanceAs (Decidable x.authority.Valid)

variable [Packer VarUint32]

def ProducerKey.size (x : ProducerKey) : ℕ := 8 + Packer.size x.blockSigningKey
def ProducerKey.pack : ProducerKey → Encoder → Encoder × ℕ :=
  packFields ProducerKey.producerName ProducerKey.blockSigningKey
def ProducerKey.unpack : ProducerKey → List (BitVec 8) → Except Abort (ProducerKey × ℕ) :=
  unpackFields ProducerKey.producerName ProducerKey.blockSigningKey ProducerKey.mk

instance : Packer ProducerKey := ⟨ProducerKey.size, ProducerKey.pack, ProducerKey.unpack⟩

def KeyWeight.size (x : KeyWeight) : ℕ := 2 + Packer.size x.key
def KeyWeight.pack : KeyWeight → Encoder → Encoder × ℕ :=
  packFields KeyWeight.key KeyWeight.weight
def KeyWeight.unpack : KeyWeight → List (BitVec 8) → Except Abort (KeyWeight × ℕ) :=
  unpackFields KeyWeight.key KeyWeight.weight KeyWeight.mk

instance : Packer KeyWeight := ⟨KeyWeight.size, KeyWeight.pack, KeyWeight.unpack⟩

/-- `let mut size = 2 + VarUint32::new(self.keys.len() as u32).size(); ...`: the threshold
is a `u32`. -/
def BlockSigningAuthorityV0.size (x : BlockSigningAuthorityV0) : ℕ :=
  x.keys.foldl (fun size key ↦ size + Packer.size key)
    (2 + Packer.size (VarUint32.new (BitVec.ofNat 32 x.keys.length)))
def BlockSigningAuthorityV0.pack : BlockSigningAuthorityV0 → Encoder → Encoder × ℕ :=
  packFields BlockSigningAuthorityV0.threshold BlockSigningAuthorityV0.keys
def BlockSigningAuthorityV0.unpack :
    BlockSigningAuthorityV0 → List (BitVec 8) → Except Abort (BlockSigningAuthorityV0 × ℕ) :=
  unpackFields BlockSigningAuthorityV0.threshold BlockSigningAuthorityV0.keys
    BlockSigningAuthorityV0.mk

instance : Packer BlockSigningAuthorityV0 :=
  ⟨BlockSigningAuthorityV0.size, BlockSigningAuthorityV0.pack, BlockSigningAuthorityV0.unpack⟩

def BlockSigningAuthority.size (x : BlockSigningAuthority) : ℕ :=
  1 + match x with
    | .v0 x => Packer.size x

def BlockSigningAuthority.pack (x : BlockSigningAuthority) (enc : Encoder) : Encoder × ℕ :=
  let pos := enc.getSize
  let enc := (Packer.pack (0 : BitVec 8) enc).1
  let enc := match x with
    | .v0 x => (Packer.pack x enc).1
  (enc, enc.getSize - pos)

def BlockSigningAuthority.unpack (_ : BlockSigningAuthority) (raw : List (BitVec 8)) :
    Except Abort (BlockSigningAuthority × ℕ) := do
  let dec := Decoder.new raw
  let (ty, dec) ← dec.unpack (0 : BitVec 8)
  if ty = 0 then
    let (x, dec) ← dec.unpack (default : BlockSigningAuthorityV0)
    pure (.v0 x, dec.getPos)
  else .error (.check "bad BlockSigningAuthority type")

instance : Packer BlockSigningAuthority :=
  ⟨BlockSigningAuthority.size, BlockSigningAuthority.pack, BlockSigningAuthority.unpack⟩

def ProducerAuthority.size (x : ProducerAuthority) : ℕ :=
  Packer.size x.producerName + Packer.size x.authority
def ProducerAuthority.pack : ProducerAuthority → Encoder → Encoder × ℕ :=
  packFields ProducerAuthority.producerName ProducerAuthority.authority
def ProducerAuthority.unpack :
    ProducerAuthority → List (BitVec 8) → Except Abort (ProducerAuthority × ℕ) :=
  unpackFields ProducerAuthority.producerName ProducerAuthority.authority ProducerAuthority.mk

instance : Packer ProducerAuthority :=
  ⟨ProducerAuthority.size, ProducerAuthority.pack, ProducerAuthority.unpack⟩

def ProducerKey.wire (x : ProducerKey) : List (BitVec 8) :=
  x.producerName.wire ++ x.blockSigningKey.wire
def KeyWeight.wire (x : KeyWeight) : List (BitVec 8) := x.key.wire ++ le 2 x.weight.toNat
def BlockSigningAuthorityV0.wire (x : BlockSigningAuthorityV0) : List (BitVec 8) :=
  le 4 x.threshold.toNat ++ listWire KeyWeight.wire x.keys
def BlockSigningAuthority.wire : BlockSigningAuthority → List (BitVec 8)
  | .v0 x => [0] ++ x.wire
def ProducerAuthority.wire (x : ProducerAuthority) : List (BitVec 8) :=
  x.producerName.wire ++ x.authority.wire

section Laws

variable (hvp : PacksAs (α := VarUint32) Packer.bytes)
  (hvr : ReadsBack (α := VarUint32) Packer.bytes fun _ ↦ True)
  (hvc : Canonical (α := VarUint32) Packer.bytes)

include hvp in
theorem ProducerKey.packsAs : PacksAs ProducerKey.wire :=
  fields_packsAs producerName blockSigningKey (fun _ _ ↦ rfl) Name.lawful.packsAs
    (PublicKey.packsAs hvp)

include hvr in
theorem ProducerKey.readsBack : ReadsBack ProducerKey.wire ProducerKey.Valid :=
  (fields_readsBack producerName blockSigningKey mk (fun _ _ ↦ rfl) Name.lawful.readsBack
    (PublicKey.readsBack hvr) rfl rfl fun _ ↦ rfl).mono fun _ h ↦ ⟨trivial, h⟩

include hvc in
theorem ProducerKey.canonical : Canonical ProducerKey.wire :=
  fields_canonical producerName blockSigningKey mk (fun _ _ ↦ rfl) Name.lawful.canonical
    (PublicKey.canonical hvc) rfl rfl (fun _ _ ↦ rfl) fun _ _ ↦ rfl

include hvp in
theorem KeyWeight.packsAs : PacksAs KeyWeight.wire :=
  fields_packsAs key weight (fun _ _ ↦ rfl) (PublicKey.packsAs hvp) u16_lawful.packsAs

include hvr in
theorem KeyWeight.readsBack : ReadsBack KeyWeight.wire KeyWeight.Valid :=
  (fields_readsBack key weight mk (fun _ _ ↦ rfl) (PublicKey.readsBack hvr) u16_lawful.readsBack
    rfl rfl fun _ ↦ rfl).mono fun _ h ↦ ⟨h, trivial⟩

include hvc in
theorem KeyWeight.canonical : Canonical KeyWeight.wire :=
  fields_canonical key weight mk (fun _ _ ↦ rfl) (PublicKey.canonical hvc) u16_lawful.canonical
    rfl rfl (fun _ _ ↦ rfl) fun _ _ ↦ rfl

include hvp in
theorem BlockSigningAuthorityV0.packsAs : PacksAs BlockSigningAuthorityV0.wire :=
  fields_packsAs threshold keys (fun _ _ ↦ rfl) u32_lawful.packsAs
    (list_packsAs hvp (KeyWeight.packsAs hvp))

include hvr in
theorem BlockSigningAuthorityV0.readsBack :
    ReadsBack BlockSigningAuthorityV0.wire BlockSigningAuthorityV0.Valid :=
  (fields_readsBack threshold keys mk (fun _ _ ↦ rfl) u32_lawful.readsBack
    (list_readsBack hvr (KeyWeight.readsBack hvr)) rfl rfl fun _ ↦ rfl).mono
    fun _ h ↦ ⟨trivial, h⟩

include hvc in
theorem BlockSigningAuthorityV0.canonical : Canonical BlockSigningAuthorityV0.wire :=
  fields_canonical threshold keys mk (fun _ _ ↦ rfl) u32_lawful.canonical
    (list_canonical hvc (KeyWeight.canonical hvc)) rfl rfl (fun _ _ ↦ rfl) fun _ _ ↦ rfl

include hvp in
theorem BlockSigningAuthority.packsAs : PacksAs BlockSigningAuthority.wire := by
  rintro ⟨x⟩ enc
  show pack (.v0 x) enc = _
  simp [pack, u8_lawful.packsAs _ _, BlockSigningAuthorityV0.packsAs hvp _ _, wire, le]

include hvr in
theorem BlockSigningAuthority.readsBack :
    ReadsBack BlockSigningAuthority.wire BlockSigningAuthority.Valid := by
  rintro ⟨x⟩ t hx
  show unpack default _ = _
  simp [unpack, wire, u8_unpack_after,
    Decoder.unpack_after_readsBack (BlockSigningAuthorityV0.readsBack hvr) hx rfl]

include hvc in
theorem BlockSigningAuthority.canonical : Canonical BlockSigningAuthority.wire := by
  intro b v n h
  change unpack default b = _ at h
  simp only [unpack, bind_eq_ok, Decoder.new_eq] at h
  obtain ⟨⟨ty, dec₁⟩, hty, h⟩ := h
  obtain ⟨t₁, rfl, rfl⟩ := u8_unpack_after_eq_ok hty
  split at h
  · next h₀ =>
    simp only at h₀
    subst h₀
    simp only [bind_eq_ok] at h
    obtain ⟨⟨x, dec₂⟩, hx, h⟩ := h
    obtain ⟨t₂, rfl, rfl⟩ :=
      Decoder.unpack_after_canonical (BlockSigningAuthorityV0.canonical hvc) rfl hx
    simp only [pure_eq_ok, Except.ok.injEq, Prod.mk.injEq, Decoder.getPos_after] at h
    obtain ⟨rfl, rfl⟩ := h
    exact ⟨t₂, by simp [wire], by simp [wire]⟩
  · cases h

include hvp in
theorem ProducerAuthority.packsAs : PacksAs ProducerAuthority.wire :=
  fields_packsAs producerName authority (fun _ _ ↦ rfl) Name.lawful.packsAs
    (BlockSigningAuthority.packsAs hvp)

include hvr in
theorem ProducerAuthority.readsBack : ReadsBack ProducerAuthority.wire ProducerAuthority.Valid :=
  (fields_readsBack producerName authority mk (fun _ _ ↦ rfl) Name.lawful.readsBack
    (BlockSigningAuthority.readsBack hvr) rfl rfl fun _ ↦ rfl).mono fun _ h ↦ ⟨trivial, h⟩

include hvc in
theorem ProducerAuthority.canonical : Canonical ProducerAuthority.wire :=
  fields_canonical producerName authority mk (fun _ _ ↦ rfl) Name.lawful.canonical
    (BlockSigningAuthority.canonical hvc) rfl rfl (fun _ _ ↦ rfl) fun _ _ ↦ rfl

theorem ProducerKey.decodesValid : DecodesValid ProducerKey.Valid :=
  (fields_decodesValid producerName blockSigningKey mk (fun _ _ ↦ rfl) decodesValid_true
    PublicKey.decodesValid rfl rfl (fun _ _ ↦ rfl) fun _ _ ↦ rfl).mono fun _ h ↦ h.2

theorem KeyWeight.decodesValid : DecodesValid KeyWeight.Valid :=
  (fields_decodesValid key weight mk (fun _ _ ↦ rfl) PublicKey.decodesValid decodesValid_true
    rfl rfl (fun _ _ ↦ rfl) fun _ _ ↦ rfl).mono fun _ h ↦ h.1

theorem BlockSigningAuthorityV0.decodesValid : DecodesValid BlockSigningAuthorityV0.Valid :=
  (fields_decodesValid threshold keys mk (fun _ _ ↦ rfl) decodesValid_true
    (list_decodesValid KeyWeight.decodesValid) rfl rfl (fun _ _ ↦ rfl) fun _ _ ↦ rfl).mono
    fun _ h ↦ h.2

theorem BlockSigningAuthority.decodesValid : DecodesValid BlockSigningAuthority.Valid := by
  intro b v n h
  change unpack default b = _ at h
  simp only [unpack, bind_eq_ok] at h
  obtain ⟨⟨ty, dec₁⟩, -, h⟩ := h
  split at h
  · simp only [bind_eq_ok, pure_eq_ok, Except.ok.injEq, Prod.mk.injEq] at h
    obtain ⟨⟨x, dec₂⟩, hx, rfl, -⟩ := h
    exact Decoder.unpack_decodesValid BlockSigningAuthorityV0.decodesValid rfl hx
  · cases h

theorem ProducerAuthority.decodesValid : DecodesValid ProducerAuthority.Valid :=
  (fields_decodesValid producerName authority mk (fun _ _ ↦ rfl) decodesValid_true
    BlockSigningAuthority.decodesValid rfl rfl (fun _ _ ↦ rfl) fun _ _ ↦ rfl).mono
    fun _ h ↦ h.2

end Laws

section Size

variable (hvs : SizedAs (α := VarUint32) Packer.bytes)

include hvs in
theorem ProducerKey.sizedAs : SizedAs ProducerKey.wire := fun x ↦ by
  show x.size = _
  simp [size, PublicKey.sizedAs hvs _, wire, Name.wire]

include hvs in
theorem KeyWeight.sizedAs : SizedAs KeyWeight.wire := fun x ↦ by
  show x.size = _
  simp [size, PublicKey.sizedAs hvs _, wire, Nat.add_comm]

include hvs in
theorem BlockSigningAuthorityV0.size_add_two (x : BlockSigningAuthorityV0) :
    Packer.size x + 2 = x.wire.length := by
  show x.size + 2 = _
  have hk : (Packer.size : KeyWeight → ℕ) = List.length ∘ KeyWeight.wire :=
    funext (KeyWeight.sizedAs hvs)
  rw [size, foldl_add_size]
  simp only [hvs _, wire, listWire, List.length_append, length_le, List.length_flatMap, hk]
  omega

include hvs in
theorem BlockSigningAuthority.size_add_two (x : BlockSigningAuthority) :
    Packer.size x + 2 = x.wire.length := by
  obtain ⟨x⟩ := x
  have := BlockSigningAuthorityV0.size_add_two hvs x
  show size (.v0 x) + 2 = _
  simp only [size, wire, List.length_append, List.length_singleton] at this ⊢
  omega

include hvs in
theorem ProducerAuthority.size_add_two (x : ProducerAuthority) :
    Packer.size x + 2 = x.wire.length := by
  have := BlockSigningAuthority.size_add_two hvs x.authority
  show x.size + 2 = _
  simp only [size, wire, List.length_append, Name.lawful.sizedAs _] at this ⊢
  omega

end Size

end RscdkChain
