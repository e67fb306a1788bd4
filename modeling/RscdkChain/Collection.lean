import RscdkChain.Number

namespace RscdkChain

variable {α : Type}

structure RustString where
  bytes : List (BitVec 8)
  deriving DecidableEq, Repr

instance : Inhabited RustString := ⟨⟨[]⟩⟩

@[simp] theorem RustString.default_bytes : (default : RustString).bytes = [] := rfl

@[simp] theorem default_eq_nil : (default : List α) = [] := rfl

def RustString.Valid (s : RustString) : Prop := s.bytes.length < 2 ^ 32

def ListValid (valid : α → Prop) (xs : List α) : Prop :=
  xs.length < 2 ^ 32 ∧ ∀ x ∈ xs, valid x

instance : DecidablePred RustString.Valid :=
  fun s ↦ inferInstanceAs (Decidable (s.bytes.length < 2 ^ 32))

instance {valid : α → Prop} [DecidablePred valid] : DecidablePred (ListValid valid) :=
  fun xs ↦ inferInstanceAs (Decidable (xs.length < 2 ^ 32 ∧ ∀ x ∈ xs, valid x))

def Decoder.unpackElems [Packer α] [Inhabited α] : ℕ → Decoder → Except Abort (List α × Decoder)
  | 0, dec => .ok ([], dec)
  | count + 1, dec => do
    let (v, dec) ← dec.unpack (default : α)
    let (vs, dec) ← unpackElems count dec
    pure (v :: vs, dec)

section Elems

variable [Packer α] {w : α → List (BitVec 8)}

theorem foldl_pack (h : PacksAs w) (xs : List α) (enc : Encoder) :
    xs.foldl (fun enc x ↦ (Packer.pack x enc).1) enc = ⟨enc.buf ++ xs.flatMap w⟩ := by
  induction xs generalizing enc with
  | nil => simp
  | cons x xs ih => simp [h x enc, ih]

variable [Inhabited α]

theorem unpackElems_readsBack {valid : α → Prop} (h : ReadsBack w valid) :
    ∀ (xs : List α) (pre t : List (BitVec 8)), (∀ x ∈ xs, valid x) →
      Decoder.unpackElems xs.length (Decoder.after pre (xs.flatMap w ++ t)) =
        .ok (xs, Decoder.after (pre ++ xs.flatMap w) t)
  | [], pre, t, _ => by simp [Decoder.unpackElems]
  | x :: xs, pre, t, hx => by
    simp only [List.length_cons, Decoder.unpackElems, List.flatMap_cons, List.append_assoc,
      Decoder.unpack_after_readsBack h (hx x (List.mem_cons_self x xs)) rfl, ok_bind,
      unpackElems_readsBack h xs _ t fun y hy ↦ hx y (List.mem_cons_of_mem x hy), pure_eq_ok]

theorem unpackElems_canonical (h : Canonical w) :
    ∀ (count : ℕ) {pre rest : List (BitVec 8)} {xs : List α} {dec : Decoder},
      Decoder.unpackElems count (Decoder.after pre rest) = .ok (xs, dec) →
        xs.length = count ∧ ∃ t, rest = xs.flatMap w ++ t ∧
          dec = Decoder.after (pre ++ xs.flatMap w) t
  | 0, pre, rest, xs, dec, hd => by
    simp only [Decoder.unpackElems, Except.ok.injEq, Prod.mk.injEq] at hd
    obtain ⟨rfl, rfl⟩ := hd
    simp
  | count + 1, pre, rest, xs, dec, hd => by
    simp only [Decoder.unpackElems, bind_eq_ok] at hd
    obtain ⟨⟨v, dec₁⟩, hv, ⟨vs, dec₂⟩, hvs, hd⟩ := hd
    obtain ⟨t₁, rfl, rfl⟩ := Decoder.unpack_after_canonical h rfl hv
    obtain ⟨hlen, t₂, rfl, rfl⟩ := unpackElems_canonical h count hvs
    simp only [pure_eq_ok, Except.ok.injEq, Prod.mk.injEq] at hd
    obtain ⟨rfl, rfl⟩ := hd
    exact ⟨by simp [hlen], t₂, by simp, by simp⟩

theorem unpackElems_decodesValid {valid : α → Prop} (h : DecodesValid valid) :
    ∀ (count : ℕ) {dec dec' : Decoder} {xs : List α},
      Decoder.unpackElems count dec = .ok (xs, dec') → xs.length = count ∧ ∀ x ∈ xs, valid x
  | 0, dec, dec', xs, hd => by
    simp only [Decoder.unpackElems, Except.ok.injEq, Prod.mk.injEq] at hd
    obtain ⟨rfl, rfl⟩ := hd
    simp
  | count + 1, dec, dec', xs, hd => by
    simp only [Decoder.unpackElems, bind_eq_ok] at hd
    obtain ⟨⟨v, dec₁⟩, hv, ⟨vs, dec₂⟩, hvs, hd⟩ := hd
    obtain ⟨hlen, hvs⟩ := unpackElems_decodesValid h count hvs
    simp only [pure_eq_ok, Except.ok.injEq, Prod.mk.injEq] at hd
    obtain ⟨rfl, rfl⟩ := hd
    refine ⟨by simp [hlen], fun x hx ↦ ?_⟩
    rcases List.mem_cons.mp hx with rfl | hx
    · exact Decoder.unpack_decodesValid h rfl hv
    · exact hvs x hx

end Elems

variable [Packer VarUint32]

/-- Modelled from the spec: the Packer of `String` (serializer.rs, absent), a `VarUint32` count
of bytes and then the bytes, which `unpack` adds to the receiver as a vector's elements are
(§4.4); reading past the end panics. -/
instance : Packer RustString where
  size s := Packer.size (VarUint32.new (BitVec.ofNat 32 s.bytes.length)) + s.bytes.length
  pack s enc :=
    let pos := enc.getSize
    let enc := (Packer.pack (VarUint32.new (BitVec.ofNat 32 s.bytes.length)) enc).1
    let enc := (enc.alloc s.bytes.length).fill s.bytes
    (enc, enc.getSize - pos)
  unpack self data := do
    let (length, size) ← Packer.unpack (default : VarUint32) data
    if size + length.value.toNat ≤ data.length then
      pure (⟨self.bytes ++ (data.drop size).take length.value.toNat⟩, size + length.value.toNat)
    else .error .panic

def RustString.wire (s : RustString) : List (BitVec 8) :=
  Packer.bytes (VarUint32.new (BitVec.ofNat 32 s.bytes.length)) ++ s.bytes

/-- Modelled from the spec: the Packer of `Vec<T>` (serializer.rs, absent), a `VarUint32` count
and then each element in order (§4.4). `unpack` mutates the receiver in place (§4.3), pushing each
decoded element onto it. -/
instance [Packer α] [Inhabited α] : Packer (List α) where
  size xs := Packer.size (VarUint32.new (BitVec.ofNat 32 xs.length)) + (xs.map Packer.size).sum
  pack xs enc :=
    let pos := enc.getSize
    let enc := (Packer.pack (VarUint32.new (BitVec.ofNat 32 xs.length)) enc).1
    let enc := xs.foldl (fun enc x ↦ (Packer.pack x enc).1) enc
    (enc, enc.getSize - pos)
  unpack self data := do
    let (size, dec) ← (Decoder.new data).unpack (default : VarUint32)
    let (xs, dec) ← Decoder.unpackElems size.value.toNat dec
    pure (self ++ xs, dec.getPos)

def listWire (w : α → List (BitVec 8)) (xs : List α) : List (BitVec 8) :=
  Packer.bytes (VarUint32.new (BitVec.ofNat 32 xs.length)) ++ xs.flatMap w

section Str

theorem RustString.packsAs (hvp : PacksAs (α := VarUint32) Packer.bytes) :
    PacksAs RustString.wire := by
  intro s enc
  have h := Encoder.alloc_fill ⟨enc.buf ++ Packer.bytes (VarUint32.new
    (BitVec.ofNat 32 s.bytes.length))⟩ s.bytes
  simp [Packer.pack, hvp _ enc, h, wire]

theorem RustString.sizedAs (hvs : SizedAs (α := VarUint32) Packer.bytes) :
    SizedAs RustString.wire := by
  intro s; simp [Packer.size, hvs _, wire]

theorem RustString.readsBack (hvr : ReadsBack (α := VarUint32) Packer.bytes fun _ ↦ True) :
    ReadsBack RustString.wire RustString.Valid := by
  intro s t hs
  simp only [Packer.unpack, wire, List.append_assoc, hvr _ _ trivial, ok_bind,
    VarUint32.value_new_ofNat hs, List.drop_left, List.take_left]
  simp

theorem RustString.canonical (hvc : Canonical (α := VarUint32) Packer.bytes) :
    Canonical RustString.wire := by
  intro b v n h
  simp only [Packer.unpack, bind_eq_ok] at h
  obtain ⟨⟨len, size⟩, hl, h⟩ := h
  obtain ⟨t, rfl, rfl⟩ := hvc _ _ _ hl
  split at h
  · next hle =>
    simp only [pure_eq_ok, Except.ok.injEq, Prod.mk.injEq] at h
    obtain ⟨rfl, rfl⟩ := h
    have ht : len.value.toNat ≤ t.length := by simp at hle; omega
    exact ⟨t.drop len.value.toNat, by simp [wire, List.length_take_of_le ht],
      by simp [wire, List.length_take_of_le ht]⟩
  · cases h

theorem RustString.decodesValid : DecodesValid RustString.Valid := by
  intro b v n h
  simp only [Packer.unpack, bind_eq_ok] at h
  obtain ⟨⟨len, size⟩, -, h⟩ := h
  split at h
  · simp only [pure_eq_ok, Except.ok.injEq, Prod.mk.injEq] at h
    obtain ⟨rfl, -⟩ := h
    exact lt_of_le_of_lt (List.length_take_le _ _) len.value.isLt
  · cases h

end Str

section Vec

variable [Packer α] [Inhabited α] {w : α → List (BitVec 8)}

theorem list_packsAs (hvp : PacksAs (α := VarUint32) Packer.bytes) (h : PacksAs w) :
    PacksAs (listWire w) := by
  intro xs enc
  simp [Packer.pack, hvp _ enc, foldl_pack h, listWire]

theorem list_readsBack (hvr : ReadsBack (α := VarUint32) Packer.bytes fun _ ↦ True)
    {valid : α → Prop} (h : ReadsBack w valid) : ReadsBack (listWire w) (ListValid valid) := by
  intro xs t ⟨hlen, hx⟩
  simp only [Packer.unpack, listWire, Decoder.new_eq, List.append_assoc,
    Decoder.unpack_after_readsBack hvr trivial rfl, ok_bind, VarUint32.value_new_ofNat hlen,
    unpackElems_readsBack h xs _ t hx, pure_eq_ok, Decoder.getPos_after]
  simp

theorem list_canonical (hvc : Canonical (α := VarUint32) Packer.bytes) (h : Canonical w) :
    Canonical (listWire w) := by
  intro b v n hb
  simp only [Packer.unpack, Decoder.new_eq, bind_eq_ok] at hb
  obtain ⟨⟨len, dec₁⟩, hl, ⟨xs, dec₂⟩, hxs, hb⟩ := hb
  obtain ⟨t₁, rfl, rfl⟩ := Decoder.unpack_after_canonical hvc rfl hl
  obtain ⟨hlen, t₂, rfl, rfl⟩ := unpackElems_canonical h _ hxs
  simp only [pure_eq_ok, Except.ok.injEq, Prod.mk.injEq, Decoder.getPos_after] at hb
  obtain ⟨rfl, rfl⟩ := hb
  exact ⟨t₂, by simp [listWire, hlen], by simp [listWire, hlen]⟩

theorem list_decodesValid {valid : α → Prop} (h : DecodesValid valid) :
    DecodesValid (ListValid valid) := by
  intro b v n hb
  simp only [Packer.unpack, bind_eq_ok] at hb
  obtain ⟨⟨len, dec₁⟩, -, ⟨xs, dec₂⟩, hxs, hb⟩ := hb
  obtain ⟨hlen, hx⟩ := unpackElems_decodesValid h _ hxs
  simp only [pure_eq_ok, Except.ok.injEq, Prod.mk.injEq] at hb
  obtain ⟨rfl, -⟩ := hb
  exact ⟨hlen ▸ len.value.isLt, hx⟩

end Vec

end RscdkChain
