import RscdkChain.Structs.Authority
import RscdkChain.Varint

namespace RscdkChain

/-- The Packer types of structs.rs. -/
inductive StructType
  | float128 | checksum160 | checksum256 | checksum512 | eccPublicKey | userPresence
  | webAuthNPublicKey | publicKey | signature | uint256 | timePoint | timePointSec
  | blockTimeStampType | producerKey | keyWeight | blockSigningAuthorityV0
  | blockSigningAuthority | producerAuthority
  deriving DecidableEq, Repr

namespace StructType

abbrev denote : StructType → Type
  | float128 => Float128
  | checksum160 => Checksum160
  | checksum256 => Checksum256
  | checksum512 => Checksum512
  | eccPublicKey => ECCPublicKey
  | userPresence => UserPresence
  | webAuthNPublicKey => WebAuthNPublicKey
  | publicKey => PublicKey
  | signature => Signature
  | uint256 => Uint256
  | timePoint => TimePoint
  | timePointSec => TimePointSec
  | blockTimeStampType => BlockTimeStampType
  | producerKey => ProducerKey
  | keyWeight => KeyWeight
  | blockSigningAuthorityV0 => BlockSigningAuthorityV0
  | blockSigningAuthority => BlockSigningAuthority
  | producerAuthority => ProducerAuthority

instance instInhabited : (t : StructType) → Inhabited t.denote
  | float128 | checksum160 | checksum256 | checksum512 | eccPublicKey | userPresence
  | webAuthNPublicKey | publicKey | signature | uint256 | timePoint | timePointSec
  | blockTimeStampType | producerKey | keyWeight | blockSigningAuthorityV0
  | blockSigningAuthority | producerAuthority => inferInstance

/-- What `unpack` needs of a value to read it back: counts that fit a `u32`, and a signature
type of 0. -/
def Valid : (t : StructType) → t.denote → Prop
  | webAuthNPublicKey => WebAuthNPublicKey.Valid
  | publicKey => PublicKey.Valid
  | signature => fun x ↦ x.ty = 0
  | producerKey => ProducerKey.Valid
  | keyWeight => KeyWeight.Valid
  | blockSigningAuthorityV0 => BlockSigningAuthorityV0.Valid
  | blockSigningAuthority => BlockSigningAuthority.Valid
  | producerAuthority => ProducerAuthority.Valid
  | float128 | checksum160 | checksum256 | checksum512 | eccPublicKey | userPresence
  | uint256 | timePoint | timePointSec | blockTimeStampType => fun _ ↦ True

instance instDecidableValid : (t : StructType) → DecidablePred t.Valid
  | webAuthNPublicKey => inferInstanceAs (DecidablePred WebAuthNPublicKey.Valid)
  | publicKey => inferInstanceAs (DecidablePred PublicKey.Valid)
  | signature => fun x ↦ inferInstanceAs (Decidable (x.ty = 0))
  | producerKey => inferInstanceAs (DecidablePred ProducerKey.Valid)
  | keyWeight => inferInstanceAs (DecidablePred KeyWeight.Valid)
  | blockSigningAuthorityV0 => inferInstanceAs (DecidablePred BlockSigningAuthorityV0.Valid)
  | blockSigningAuthority => inferInstanceAs (DecidablePred BlockSigningAuthority.Valid)
  | producerAuthority => inferInstanceAs (DecidablePred ProducerAuthority.Valid)
  | float128 | checksum160 | checksum256 | checksum512 | eccPublicKey | userPresence
  | uint256 | timePoint | timePointSec | blockTimeStampType =>
    fun _ ↦ inferInstanceAs (Decidable True)

def sizeShortfall : StructType → ℕ
  | blockSigningAuthorityV0 | blockSigningAuthority | producerAuthority => 2
  | _ => 0

section Model

variable [Packer VarUint32]

instance instPacker : (t : StructType) → Packer t.denote
  | float128 | checksum160 | checksum256 | checksum512 | eccPublicKey | userPresence
  | webAuthNPublicKey | publicKey | signature | uint256 | timePoint | timePointSec
  | blockTimeStampType | producerKey | keyWeight | blockSigningAuthorityV0
  | blockSigningAuthority | producerAuthority => inferInstance

/-- The reference layout `W` of each type. -/
def wire : (t : StructType) → t.denote → List (BitVec 8)
  | float128 => Float128.wire
  | checksum160 => Checksum160.wire
  | checksum256 => Checksum256.wire
  | checksum512 => Checksum512.wire
  | eccPublicKey => ECCPublicKey.wire
  | userPresence => UserPresence.wire
  | webAuthNPublicKey => WebAuthNPublicKey.wire
  | publicKey => PublicKey.wire
  | signature => Signature.wire
  | uint256 => Uint256.wire
  | timePoint => TimePoint.wire
  | timePointSec => TimePointSec.wire
  | blockTimeStampType => BlockTimeStampType.wire
  | producerKey => ProducerKey.wire
  | keyWeight => KeyWeight.wire
  | blockSigningAuthorityV0 => BlockSigningAuthorityV0.wire
  | blockSigningAuthority => BlockSigningAuthority.wire
  | producerAuthority => ProducerAuthority.wire

section Laws

variable (hvp : PacksAs (α := VarUint32) Packer.bytes)
  (hvr : ReadsBack (α := VarUint32) Packer.bytes fun _ ↦ True)
  (hvc : Canonical (α := VarUint32) Packer.bytes)
  (hvs : SizedAs (α := VarUint32) Packer.bytes)

include hvp in
theorem packsAs : ∀ t : StructType, PacksAs t.wire
  | float128 => Float128.lawful.packsAs
  | checksum160 => Checksum160.lawful.packsAs
  | checksum256 => Checksum256.lawful.packsAs
  | checksum512 => Checksum512.lawful.packsAs
  | eccPublicKey => ECCPublicKey.lawful.packsAs
  | userPresence => UserPresence.lawful.packsAs
  | webAuthNPublicKey => WebAuthNPublicKey.packsAs hvp
  | publicKey => PublicKey.packsAs hvp
  | signature => Signature.packsAs
  | uint256 => Uint256.lawful.packsAs
  | timePoint => TimePoint.lawful.packsAs
  | timePointSec => TimePointSec.lawful.packsAs
  | blockTimeStampType => BlockTimeStampType.lawful.packsAs
  | producerKey => ProducerKey.packsAs hvp
  | keyWeight => KeyWeight.packsAs hvp
  | blockSigningAuthorityV0 => BlockSigningAuthorityV0.packsAs hvp
  | blockSigningAuthority => BlockSigningAuthority.packsAs hvp
  | producerAuthority => ProducerAuthority.packsAs hvp

include hvr in
theorem readsBack : ∀ t : StructType, ReadsBack t.wire t.Valid
  | float128 => Float128.lawful.readsBack
  | checksum160 => Checksum160.lawful.readsBack
  | checksum256 => Checksum256.lawful.readsBack
  | checksum512 => Checksum512.lawful.readsBack
  | eccPublicKey => ECCPublicKey.lawful.readsBack
  | userPresence => UserPresence.lawful.readsBack
  | webAuthNPublicKey => WebAuthNPublicKey.readsBack hvr
  | publicKey => PublicKey.readsBack hvr
  | signature => Signature.readsBack
  | uint256 => Uint256.lawful.readsBack
  | timePoint => TimePoint.lawful.readsBack
  | timePointSec => TimePointSec.lawful.readsBack
  | blockTimeStampType => BlockTimeStampType.lawful.readsBack
  | producerKey => ProducerKey.readsBack hvr
  | keyWeight => KeyWeight.readsBack hvr
  | blockSigningAuthorityV0 => BlockSigningAuthorityV0.readsBack hvr
  | blockSigningAuthority => BlockSigningAuthority.readsBack hvr
  | producerAuthority => ProducerAuthority.readsBack hvr

include hvc in
theorem canonical : ∀ t : StructType, Canonical t.wire
  | float128 => Float128.lawful.canonical
  | checksum160 => Checksum160.lawful.canonical
  | checksum256 => Checksum256.lawful.canonical
  | checksum512 => Checksum512.lawful.canonical
  | eccPublicKey => ECCPublicKey.lawful.canonical
  | userPresence => UserPresence.lawful.canonical
  | webAuthNPublicKey => WebAuthNPublicKey.canonical hvc
  | publicKey => PublicKey.canonical hvc
  | signature => Signature.canonical
  | uint256 => Uint256.lawful.canonical
  | timePoint => TimePoint.lawful.canonical
  | timePointSec => TimePointSec.lawful.canonical
  | blockTimeStampType => BlockTimeStampType.lawful.canonical
  | producerKey => ProducerKey.canonical hvc
  | keyWeight => KeyWeight.canonical hvc
  | blockSigningAuthorityV0 => BlockSigningAuthorityV0.canonical hvc
  | blockSigningAuthority => BlockSigningAuthority.canonical hvc
  | producerAuthority => ProducerAuthority.canonical hvc

theorem decodesValid : ∀ t : StructType, DecodesValid t.Valid
  | float128 | checksum160 | checksum256 | checksum512 | eccPublicKey | userPresence
  | uint256 | timePoint | timePointSec | blockTimeStampType => decodesValid_true
  | webAuthNPublicKey => WebAuthNPublicKey.decodesValid
  | publicKey => PublicKey.decodesValid
  | signature => Signature.decodesValid
  | producerKey => ProducerKey.decodesValid
  | keyWeight => KeyWeight.decodesValid
  | blockSigningAuthorityV0 => BlockSigningAuthorityV0.decodesValid
  | blockSigningAuthority => BlockSigningAuthority.decodesValid
  | producerAuthority => ProducerAuthority.decodesValid

include hvs in
theorem size_add_shortfall :
    ∀ (t : StructType) (x : t.denote), Packer.size x + t.sizeShortfall = (t.wire x).length
  | float128, x => Float128.lawful.sizedAs x
  | checksum160, x => Checksum160.lawful.sizedAs x
  | checksum256, x => Checksum256.lawful.sizedAs x
  | checksum512, x => Checksum512.lawful.sizedAs x
  | eccPublicKey, x => ECCPublicKey.lawful.sizedAs x
  | userPresence, x => UserPresence.lawful.sizedAs x
  | webAuthNPublicKey, x => WebAuthNPublicKey.sizedAs hvs x
  | publicKey, x => PublicKey.sizedAs hvs x
  | signature, x => Signature.sizedAs x
  | uint256, x => Uint256.lawful.sizedAs x
  | timePoint, x => TimePoint.lawful.sizedAs x
  | timePointSec, x => TimePointSec.lawful.sizedAs x
  | blockTimeStampType, x => BlockTimeStampType.lawful.sizedAs x
  | producerKey, x => ProducerKey.sizedAs hvs x
  | keyWeight, x => KeyWeight.sizedAs hvs x
  | blockSigningAuthorityV0, x => BlockSigningAuthorityV0.size_add_two hvs x
  | blockSigningAuthority, x => BlockSigningAuthority.size_add_two hvs x
  | producerAuthority, x => ProducerAuthority.size_add_two hvs x

end Laws

end Model

section RoundTrip

variable [Packer VarUint32] (hvp : PacksAs (α := VarUint32) Packer.bytes)
  (hvr : ReadsBack (α := VarUint32) Packer.bytes fun _ ↦ True)

include hvp hvr in
/-- A default receiver unpacks what `pack` appended, followed by any bytes, back to the value,
and counts exactly the bytes appended. -/
theorem unpack_pack (t : StructType) (x : t.denote) (hx : t.Valid x) (enc : Encoder)
    (tail : List (BitVec 8)) :
    ∃ bs, (Packer.pack x enc).1.buf = enc.buf ++ bs ∧
      Packer.unpack (default : t.denote) (bs ++ tail) = .ok (x, bs.length) :=
  ⟨t.wire x, by rw [packsAs hvp t x enc], readsBack hvr t x tail hx⟩

end RoundTrip

section

attribute [local instance] VarUint32.leb128

theorem unpack_pack_authority :
    ∃ bs, (Packer.pack (⟨7, [⟨.webAuth ⟨default, .present, ⟨[120]⟩⟩, 10⟩]⟩ :
        BlockSigningAuthorityV0) ⟨[1]⟩).1.buf = [1] ++ bs ∧
      Packer.unpack (default : BlockSigningAuthorityV0) (bs ++ [9]) =
        .ok (⟨7, [⟨.webAuth ⟨default, .present, ⟨[120]⟩⟩, 10⟩]⟩, bs.length) :=
  unpack_pack VarUint32.leb128_lawful.packsAs VarUint32.leb128_lawful.readsBack
    blockSigningAuthorityV0 ⟨7, [⟨.webAuth ⟨default, .present, ⟨[120]⟩⟩, 10⟩]⟩ (by decide) ⟨[1]⟩ [9]

/-- `BlockSigningAuthorityV0 { threshold: 0, keys: [] }`: `size()` is 3, while `pack` writes 5
bytes and returns 5, and `unpack` consumes 5. -/
theorem blockSigningAuthorityV0_size_mismatch :
    Packer.size (⟨0, []⟩ : BlockSigningAuthorityV0) = 3 ∧
      Packer.pack (⟨0, []⟩ : BlockSigningAuthorityV0) Encoder.new = (⟨[0, 0, 0, 0, 0]⟩, 5) ∧
      Packer.unpack (default : BlockSigningAuthorityV0) [0, 0, 0, 0, 0] = .ok (⟨0, []⟩, 5) :=
  ⟨rfl, rfl, rfl⟩

end

section Layout

variable [Packer VarUint32] (hvp : PacksAs (α := VarUint32) Packer.bytes)

include hvp in
/-- `pack` appends the reference layout to the encoder's buffer and returns its length. -/
theorem pack_eq_wire (t : StructType) (x : t.denote) (enc : Encoder) :
    Packer.pack x enc = (⟨enc.buf ++ t.wire x⟩, (t.wire x).length) :=
  packsAs hvp t x enc

end Layout

section

attribute [local instance] VarUint32.leb128

theorem pack_eq_wire_publicKey :
    Packer.pack (PublicKey.k1 default) ⟨[5]⟩ =
      (⟨[5] ++ publicKey.wire (.k1 default)⟩, (publicKey.wire (.k1 default)).length) :=
  pack_eq_wire VarUint32.leb128_lawful.packsAs publicKey (.k1 default) ⟨[5]⟩

end

section Canonical

variable [Packer VarUint32] (hvp : PacksAs (α := VarUint32) Packer.bytes)
  (hvc : Canonical (α := VarUint32) Packer.bytes)

include hvp hvc in
/-- What a default receiver accepts is the packing of a valid value, followed by bytes it does
not count. -/
theorem unpack_eq_ok_pack (t : StructType) {b : List (BitVec 8)} {v : t.denote} {n : ℕ}
    (h : Packer.unpack (default : t.denote) b = .ok (v, n)) (enc : Encoder) :
    t.Valid v ∧ n ≤ b.length ∧ (Packer.pack v enc).1.buf = enc.buf ++ b.take n := by
  have hv := decodesValid t b v n h
  obtain ⟨tl, rfl, rfl⟩ := canonical hvc t b v n h
  exact ⟨hv, by simp, by simp [packsAs hvp t v enc]⟩

end Canonical

section

attribute [local instance] VarUint32.leb128

theorem unpack_eq_ok_pack_userPresence :
    userPresence.Valid UserPresence.present ∧ 1 ≤ [1, 9].length ∧
      (Packer.pack UserPresence.present Encoder.new).1.buf = [] ++ [1, 9].take 1 :=
  unpack_eq_ok_pack VarUint32.leb128_lawful.packsAs VarUint32.leb128_lawful.canonical userPresence
    (b := [1, 9]) (v := .present) rfl Encoder.new

end

section Size

variable [Packer VarUint32] (hvs : SizedAs (α := VarUint32) Packer.bytes)

include hvs in
/-- The count `pack` returns, and the bytes it appends, are `size()` plus the shortfall. -/
theorem pack_count_eq_size (hvp : PacksAs (α := VarUint32) Packer.bytes) (t : StructType)
    (x : t.denote) (enc : Encoder) :
    (Packer.pack x enc).2 = Packer.size x + t.sizeShortfall ∧
      (Packer.pack x enc).1.buf.length = enc.buf.length + Packer.size x + t.sizeShortfall := by
  simp [packsAs hvp t x enc, ← size_add_shortfall hvs t x, Nat.add_assoc]

include hvs in
/-- The count a successful `unpack` returns is `size()` of the decoded value plus the
shortfall. -/
theorem unpack_count_eq_size (hvc : Canonical (α := VarUint32) Packer.bytes) (t : StructType)
    {b : List (BitVec 8)} {v : t.denote} {n : ℕ}
    (h : Packer.unpack (default : t.denote) b = .ok (v, n)) :
    n = Packer.size v + t.sizeShortfall := by
  obtain ⟨tl, rfl, rfl⟩ := canonical hvc t b v n h
  exact (size_add_shortfall hvs t v).symm

end Size

section

attribute [local instance] VarUint32.leb128

theorem pack_count_eq_size_authority :
    (Packer.pack (⟨0, []⟩ : BlockSigningAuthorityV0) Encoder.new).2 =
        Packer.size (⟨0, []⟩ : BlockSigningAuthorityV0) + 2 ∧
      (Packer.pack (⟨0, []⟩ : BlockSigningAuthorityV0) Encoder.new).1.buf.length =
        0 + Packer.size (⟨0, []⟩ : BlockSigningAuthorityV0) + 2 :=
  pack_count_eq_size VarUint32.leb128_lawful.sizedAs VarUint32.leb128_lawful.packsAs
    blockSigningAuthorityV0 ⟨0, []⟩ Encoder.new

theorem unpack_count_eq_size_authority :
    5 = Packer.size (⟨0, []⟩ : BlockSigningAuthorityV0) + 2 :=
  unpack_count_eq_size VarUint32.leb128_lawful.sizedAs VarUint32.leb128_lawful.canonical
    blockSigningAuthorityV0 (b := [0, 0, 0, 0, 0]) (v := ⟨0, []⟩) rfl

end

end StructType

end RscdkChain
