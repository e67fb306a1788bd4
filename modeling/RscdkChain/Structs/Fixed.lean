import RscdkChain.Collection

namespace RscdkChain

open Mathlib (Vector)

variable {α : Type}

/-- The Packer of the byte-array types: `data` copied verbatim, and `unpack` guarded by
`check(raw.len() >= size, msg)`. -/
def bytesPacker (n : ℕ) (msg : String) (data : α → Vector (BitVec 8) n)
    (mk : Vector (BitVec 8) n → α) : Packer α where
  size _ := n
  pack x enc := ((enc.alloc n).fill (data x).toList, n)
  unpack _ raw :=
    if h : n ≤ raw.length then .ok (mk ⟨raw.take n, List.length_take_of_le h⟩, n)
    else .error (.check msg)

section BytesPacker

variable [Inhabited α] {n : ℕ} {msg : String} {data : α → Vector (BitVec 8) n}
  {mk : Vector (BitVec 8) n → α}

theorem bytesPacker_lawful (hmk : ∀ x, mk (data x) = x) (hdata : ∀ d, data (mk d) = d) :
    @Lawful α (bytesPacker n msg data mk) _ fun x ↦ (data x).toList := by
  letI := bytesPacker n msg data mk
  refine ⟨fun x enc ↦ ?_, fun _ ↦ by simp [Packer.size, bytesPacker], fun x t _ ↦ ?_,
    fun b v m h ↦ ?_, fun _ _ ↦ rfl⟩
  · have h := Encoder.alloc_fill enc (data x).toList
    simp only [Vector.toList_length] at h
    simp [Packer.pack, bytesPacker, h]
  · have hx : (data x).toList.length = n := Vector.toList_length _
    simp only [Packer.unpack, bytesPacker, List.length_append, hx, Nat.le_add_right, dif_pos,
      List.take_left' hx, Vector.toList_mk, Except.ok.injEq, Prod.mk.injEq, and_true]
    exact (congrArg mk (Vector.eq _ _ rfl)).trans (hmk x)
  · simp only [Packer.unpack, bytesPacker] at h
    split at h
    · next hn =>
      simp only [Except.ok.injEq, Prod.mk.injEq] at h
      obtain ⟨rfl, rfl⟩ := h
      exact ⟨b.drop n, by simp [hdata], by simp [hdata, hn]⟩
    · cases h

end BytesPacker

def sliceCopy (n : ℕ) (src : List (BitVec 8)) : Except Abort (Vector (BitVec 8) n) :=
  if h : src.length = n then .ok ⟨src, h⟩ else .error .panic

/-- `from_hex` of the byte-array types; `decode_hex` (utils.rs, absent) is a parameter. -/
def fromHexWith (decodeHex : String → Except Abort (List (BitVec 8))) (n : ℕ) (msg : String)
    (mk : Vector (BitVec 8) n → α) (s : String) : Except Abort α := do
  check (s.utf8ByteSize = 2 * n) msg
  let data ← decodeHex s
  let d ← sliceCopy n data
  pure (mk d)

structure Float128 where
  data : Vector (BitVec 8) 16
  deriving DecidableEq

structure Checksum160 where
  data : Vector (BitVec 8) 20
  deriving DecidableEq

structure Checksum256 where
  data : Vector (BitVec 8) 32
  deriving DecidableEq

structure Checksum512 where
  data : Vector (BitVec 8) 64
  deriving DecidableEq

structure ECCPublicKey where
  data : Vector (BitVec 8) 33
  deriving DecidableEq

instance : Inhabited Float128 := ⟨⟨Vector.replicate 16 0⟩⟩
instance : Inhabited Checksum160 := ⟨⟨Vector.replicate 20 0⟩⟩
instance : Inhabited Checksum256 := ⟨⟨Vector.replicate 32 0⟩⟩
instance : Inhabited Checksum512 := ⟨⟨Vector.replicate 64 0⟩⟩
instance : Inhabited ECCPublicKey := ⟨⟨Vector.replicate 33 0⟩⟩

instance : Packer Float128 :=
  bytesPacker 16 "Float128.unpack: buffer overflow!" Float128.data Float128.mk
instance : Packer Checksum160 :=
  bytesPacker 20 "Checksum160.unpack: buffer overflow!" Checksum160.data Checksum160.mk
instance : Packer Checksum256 :=
  bytesPacker 32 "Checksum256.unpack: buffer overflow!" Checksum256.data Checksum256.mk
instance : Packer Checksum512 :=
  bytesPacker 64 "Checksum512.unpack: buffer overflow!" Checksum512.data Checksum512.mk
instance : Packer ECCPublicKey :=
  bytesPacker 33 "EccPublicKey.unpack: buffer overflow!" ECCPublicKey.data ECCPublicKey.mk

section FromHex

variable (decodeHex : String → Except Abort (List (BitVec 8)))

def Checksum160.fromHex : String → Except Abort Checksum160 :=
  fromHexWith decodeHex 20 "Checksum160: bad hex string length" Checksum160.mk
def Checksum256.fromHex : String → Except Abort Checksum256 :=
  fromHexWith decodeHex 32 "Checksum256: bad hex string length" Checksum256.mk
def Checksum512.fromHex : String → Except Abort Checksum512 :=
  fromHexWith decodeHex 64 "Checksum512: bad hex string length" Checksum512.mk
def ECCPublicKey.fromHex : String → Except Abort ECCPublicKey :=
  fromHexWith decodeHex 33 "ECCPublicKey: bad hex string length" ECCPublicKey.mk

end FromHex

def Float128.wire (x : Float128) : List (BitVec 8) := x.data.toList
def Checksum160.wire (x : Checksum160) : List (BitVec 8) := x.data.toList
def Checksum256.wire (x : Checksum256) : List (BitVec 8) := x.data.toList
def Checksum512.wire (x : Checksum512) : List (BitVec 8) := x.data.toList
def ECCPublicKey.wire (x : ECCPublicKey) : List (BitVec 8) := x.data.toList

theorem Float128.lawful : Lawful Float128 Float128.wire :=
  bytesPacker_lawful (fun _ ↦ rfl) fun _ ↦ rfl
theorem Checksum160.lawful : Lawful Checksum160 Checksum160.wire :=
  bytesPacker_lawful (fun _ ↦ rfl) fun _ ↦ rfl
theorem Checksum256.lawful : Lawful Checksum256 Checksum256.wire :=
  bytesPacker_lawful (fun _ ↦ rfl) fun _ ↦ rfl
theorem Checksum512.lawful : Lawful Checksum512 Checksum512.wire :=
  bytesPacker_lawful (fun _ ↦ rfl) fun _ ↦ rfl
theorem ECCPublicKey.lawful : Lawful ECCPublicKey ECCPublicKey.wire :=
  bytesPacker_lawful (fun _ ↦ rfl) fun _ ↦ rfl

@[simp] theorem ECCPublicKey.length_wire (x : ECCPublicKey) : x.wire.length = 33 :=
  Vector.toList_length _

inductive UserPresence
  | none
  | present
  | verified
  deriving DecidableEq, Repr

instance : Inhabited UserPresence := ⟨.none⟩

def UserPresence.toU8 : UserPresence → BitVec 8
  | .none => 0
  | .present => 1
  | .verified => 2

instance : Packer UserPresence where
  size _ := 1
  pack x enc := Packer.pack x.toU8 enc
  unpack _ data := do
    check (1 ≤ data.length) "UserPresence.unpack: buffer overflow"
    match (data.headD 0).toNat with
    | 0 => pure (.none, 1)
    | 1 => pure (.present, 1)
    | 2 => pure (.verified, 1)
    | _ => .error (.check "not a UserPresence type")

def UserPresence.wire : UserPresence → List (BitVec 8)
  | .none => [0]
  | .present => [1]
  | .verified => [2]

@[simp] theorem UserPresence.length_wire (x : UserPresence) : x.wire.length = 1 := by
  cases x <;> rfl

theorem BitVec.eq_ofNat_of_toNat_eq {b : BitVec 8} {k : ℕ} (h : b.toNat = k) :
    b = BitVec.ofNat 8 k := by
  subst h; simp

theorem UserPresence.lawful : Lawful UserPresence UserPresence.wire where
  packsAs x enc := by cases x <;> exact u8_lawful.packsAs _ enc
  sizedAs x := by cases x <;> rfl
  readsBack x t _ := by cases x <;> simp [Packer.unpack, wire, toU8]
  canonical b v n h := by
    simp only [Packer.unpack, bind_eq_ok, check_eq_ok] at h
    obtain ⟨_, hb, h⟩ := h
    obtain ⟨c, bs, rfl⟩ := List.exists_cons_of_length_pos hb
    simp only [List.headD_cons] at h
    split at h
    all_goals first
      | (simp only [pure_eq_ok, Except.ok.injEq, Prod.mk.injEq] at h
         obtain ⟨rfl, rfl⟩ := h
         exact ⟨bs, by simp [wire, toU8, BitVec.eq_ofNat_of_toNat_eq ‹_›], rfl⟩)
      | cases h
  overwrites _ _ := rfl

structure Signature where
  ty : BitVec 8
  data : Vector (BitVec 8) 65
  deriving DecidableEq

instance : Inhabited Signature := ⟨⟨0, Vector.replicate 65 0⟩⟩

instance : Packer Signature where
  size _ := 66
  pack x enc :=
    let enc := (Packer.pack x.ty enc).1
    ((enc.alloc 65).fill x.data.toList, 66)
  unpack self data :=
    if h : 66 ≤ data.length then do
      let ty : BitVec 8 := data.headD 0
      check (ty = 0) "bad signature type"
      pure ({ self with
        ty, data := ⟨(data.drop 1).take 65, List.length_take_of_le (by simp; omega)⟩ }, 66)
    else .error (.check "Signature::unpack: buffer overflow")

def Signature.fromHex (decodeHex : String → Except Abort (List (BitVec 8))) :
    String → Except Abort Signature :=
  fromHexWith decodeHex 65 "Signature: bad hex string length" fun d ↦ { ty := 0, data := d }

def Signature.wire (x : Signature) : List (BitVec 8) := x.ty :: x.data.toList

theorem Signature.packsAs : PacksAs Signature.wire := by
  intro x enc
  have h := Encoder.alloc_fill ⟨enc.buf ++ [x.ty]⟩ x.data.toList
  simp only [Vector.toList_length] at h
  simp [Packer.pack, u8_lawful.packsAs x.ty enc, h, wire]

theorem Signature.sizedAs : SizedAs Signature.wire := fun x ↦ by simp [Packer.size, wire]

theorem Signature.readsBack : ReadsBack Signature.wire fun x ↦ x.ty = 0 := by
  rintro ⟨ty, data⟩ t (rfl : ty = 0)
  have hl : data.toList.length = 65 := Vector.toList_length _
  simp only [Packer.unpack, wire, List.cons_append, List.length_cons, List.length_append, hl,
    Nat.le_add_right, Nat.reduceLeDiff, dif_pos, List.headD_cons, check_true, List.drop_succ_cons,
    List.drop_zero, List.take_left' hl, pure_eq_ok, ok_bind]
  rfl

theorem Signature.canonical : Canonical Signature.wire := by
  intro b v n h
  simp only [Packer.unpack] at h
  split at h
  · next hb =>
    simp only [bind_eq_ok, check_eq_ok] at h
    obtain ⟨_, hty, h⟩ := h
    simp only [pure_eq_ok, Except.ok.injEq, Prod.mk.injEq] at h
    obtain ⟨rfl, rfl⟩ := h
    obtain ⟨c, bs, rfl⟩ := List.exists_cons_of_length_pos (by omega : 0 < b.length)
    exact ⟨bs.drop 65, by simp [wire, List.take_append_drop], by simp [wire]; simp at hb; omega⟩
  · cases h

theorem Signature.overwrites : Overwrites Signature := fun _ _ ↦ rfl

theorem Signature.ty_of_unpack {r sig : Signature} {data : List (BitVec 8)} {n : ℕ}
    (h : Packer.unpack r data = .ok (sig, n)) : sig.ty = 0 := by
  simp only [Packer.unpack] at h
  split at h
  · simp only [bind_eq_ok, check_eq_ok, pure_eq_ok, Except.ok.injEq, Prod.mk.injEq] at h
    obtain ⟨_, hty, rfl, -⟩ := h
    exact hty
  · cases h

theorem Signature.decodesValid : DecodesValid fun x : Signature ↦ x.ty = 0 :=
  fun _ _ _ h ↦ Signature.ty_of_unpack h

structure Uint256 where
  data : Vector (BitVec 128) 2
  deriving DecidableEq

instance : Inhabited Uint256 := ⟨⟨Vector.replicate 2 0⟩⟩

def Uint256.new (lo hi : BitVec 128) : Uint256 := ⟨⟨[lo, hi], rfl⟩⟩

def Uint256.swap (x : Uint256) : Uint256 := ⟨⟨[x.data.get 1, x.data.get 0], rfl⟩⟩

def Uint256.get₀ (x : Uint256) : BitVec 128 := x.data.get 0

def Uint256.get₁ (x : Uint256) : BitVec 128 := x.data.get 1

instance : Packer Uint256 where
  size _ := 32
  pack x enc :=
    let enc := (Packer.pack x.get₀ enc).1
    let enc := (Packer.pack x.get₁ enc).1
    (enc, 32)
  unpack := unpackFields Uint256.get₀ Uint256.get₁ Uint256.new

def Uint256.wire (x : Uint256) : List (BitVec 8) :=
  le 16 (x.data.get 0).toNat ++ le 16 (x.data.get 1).toNat

theorem Uint256.new_get (x : Uint256) : Uint256.new x.get₀ x.get₁ = x := by
  obtain ⟨⟨l, hl⟩⟩ := x
  match l, hl with
  | [a, b], _ => rfl

open Uint256 in
theorem Uint256.lawful : Lawful Uint256 Uint256.wire where
  packsAs x enc := by
    simp [Packer.pack, u128_lawful.packsAs _ _, wire, get₀, get₁]
  sizedAs _ := by simp [Packer.size, wire]
  readsBack := (fields_readsBack get₀ get₁ Uint256.new (fun _ _ ↦ rfl) u128_lawful.readsBack
    u128_lawful.readsBack rfl rfl Uint256.new_get).mono fun _ _ ↦ ⟨trivial, trivial⟩
  canonical := fields_canonical get₀ get₁ Uint256.new (fun _ _ ↦ rfl) u128_lawful.canonical
    u128_lawful.canonical rfl rfl (fun _ _ ↦ rfl) fun _ _ ↦ rfl
  overwrites := fields_overwrites get₀ get₁ Uint256.new (fun _ _ ↦ rfl) u128_lawful.overwrites
    u128_lawful.overwrites

def timePacker (k : ℕ) (msg : String) (get : α → BitVec (8 * k)) (mk : BitVec (8 * k) → α) :
    Packer α where
  size _ := k
  pack x enc := (numPacker k).pack (get x) enc
  unpack self raw := do
    check (k ≤ raw.length) msg
    let (v, n) ← (numPacker k).unpack (get self) raw
    pure (mk v, n)

theorem timePacker_lawful [Inhabited α] {k : ℕ} {msg : String} {get : α → BitVec (8 * k)}
    {mk : BitVec (8 * k) → α} (hmk : ∀ x, mk (get x) = x) (hget : ∀ v, get (mk v) = v) :
    @Lawful α (timePacker k msg get mk) _ fun x ↦ le k (get x).toNat := by
  letI := timePacker k msg get mk
  letI : Packer (BitVec (8 * k)) := numPacker k
  have hn := numPacker_lawful k
  refine ⟨fun x enc ↦ hn.packsAs (get x) enc, fun x ↦ hn.sizedAs (get x), fun x t _ ↦ ?_,
    fun b v n h ↦ ?_, fun _ _ ↦ rfl⟩
  · simp [Packer.unpack, timePacker, hn.overwrites (get default), hn.readsBack (get x) t trivial,
      hmk]
  · simp only [Packer.unpack, timePacker, bind_eq_ok] at h
    obtain ⟨_, -, ⟨v', n'⟩, hv, h⟩ := h
    obtain ⟨t, rfl, rfl⟩ := hn.canonical b v' n' (hn.overwrites (get default) b ▸ hv)
    simp only [pure_eq_ok, Except.ok.injEq, Prod.mk.injEq] at h
    obtain ⟨rfl, rfl⟩ := h
    exact ⟨t, by simp [hget], by simp [hget]⟩

structure TimePoint where
  elapsed : BitVec 64
  deriving DecidableEq

structure TimePointSec where
  seconds : BitVec 32
  deriving DecidableEq

structure BlockTimeStampType where
  slot : BitVec 32
  deriving DecidableEq

instance : Inhabited TimePoint := ⟨⟨0⟩⟩
instance : Inhabited TimePointSec := ⟨⟨0⟩⟩
instance : Inhabited BlockTimeStampType := ⟨⟨0⟩⟩

instance : Packer TimePoint :=
  timePacker 8 "TimePoint.unpack: buffer overflow!" TimePoint.elapsed TimePoint.mk
instance : Packer TimePointSec :=
  timePacker 4 "TimePointSec.unpack: buffer overflow!" TimePointSec.seconds TimePointSec.mk
instance : Packer BlockTimeStampType :=
  timePacker 4 "BlockTimeStampType.unpack: buffer overflow!" BlockTimeStampType.slot
    BlockTimeStampType.mk

def TimePoint.wire (x : TimePoint) : List (BitVec 8) := le 8 x.elapsed.toNat
def TimePointSec.wire (x : TimePointSec) : List (BitVec 8) := le 4 x.seconds.toNat
def BlockTimeStampType.wire (x : BlockTimeStampType) : List (BitVec 8) := le 4 x.slot.toNat

theorem TimePoint.lawful : Lawful TimePoint TimePoint.wire :=
  timePacker_lawful (fun _ ↦ rfl) fun _ ↦ rfl
theorem TimePointSec.lawful : Lawful TimePointSec TimePointSec.wire :=
  timePacker_lawful (fun _ ↦ rfl) fun _ ↦ rfl
theorem BlockTimeStampType.lawful : Lawful BlockTimeStampType BlockTimeStampType.wire :=
  timePacker_lawful (fun _ ↦ rfl) fun _ ↦ rfl

end RscdkChain
