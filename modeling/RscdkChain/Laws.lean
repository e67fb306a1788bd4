import RscdkChain.Serializer

namespace RscdkChain

variable {α β γ : Type} [Packer α] [Packer β]

/-- `pack` appends `w x` to whatever the encoder holds and returns its length. -/
def PacksAs (w : α → List (BitVec 8)) : Prop :=
  ∀ x enc, Packer.pack x enc = (⟨enc.buf ++ w x⟩, (w x).length)

def SizedAs (w : α → List (BitVec 8)) : Prop :=
  ∀ x, Packer.size x = (w x).length

section Decoding

variable [Inhabited α]

/-- A default receiver reads every `valid` value back from the front of its encoding. -/
def ReadsBack (w : α → List (BitVec 8)) (valid : α → Prop) : Prop :=
  ∀ x t, valid x → Packer.unpack (default : α) (w x ++ t) = .ok (x, (w x).length)

/-- What a default receiver accepts starts with the encoding of the value it decodes, whose
length is the count returned. -/
def Canonical (w : α → List (BitVec 8)) : Prop :=
  ∀ b v n, Packer.unpack (default : α) b = .ok (v, n) → ∃ t, b = w v ++ t ∧ n = (w v).length

def Overwrites (α : Type) [Packer α] [Inhabited α] : Prop :=
  ∀ (r : α) b, Packer.unpack r b = Packer.unpack (default : α) b

def DecodesValid (valid : α → Prop) : Prop :=
  ∀ b v n, Packer.unpack (default : α) b = .ok (v, n) → valid v

theorem decodesValid_true : DecodesValid fun _ : α ↦ True := fun _ _ _ _ ↦ trivial

theorem DecodesValid.mono {valid valid' : α → Prop} (h : DecodesValid valid)
    (hv : ∀ x, valid x → valid' x) : DecodesValid valid' :=
  fun b v n hb ↦ hv v (h b v n hb)

/-- The laws of a Packer whose every value reads back, with wire layout `w`. -/
structure Lawful (α : Type) [Packer α] [Inhabited α] (w : α → List (BitVec 8)) : Prop where
  packsAs : PacksAs w
  sizedAs : SizedAs w
  readsBack : ReadsBack w fun _ ↦ True
  canonical : Canonical w
  overwrites : Overwrites α

end Decoding

theorem PacksAs.bytes {w : α → List (BitVec 8)} (h : PacksAs w) (x : α) : Packer.bytes x = w x := by
  simp [Packer.bytes, h x]

namespace Decoder

def after (pre rest : List (BitVec 8)) : Decoder := ⟨pre ++ rest, pre.length⟩

@[simp] theorem new_eq (b : List (BitVec 8)) : new b = after [] b := rfl

@[simp] theorem getPos_after (pre rest : List (BitVec 8)) : (after pre rest).getPos = pre.length :=
  rfl

theorem unpack_after (pre rest : List (BitVec 8)) (v : α) :
    (after pre rest).unpack v =
      (Packer.unpack v rest).map fun r ↦ (r.1, ⟨pre ++ rest, pre.length + r.2⟩) := by
  simp [unpack, after, List.drop_left]

theorem after_append (pre u t : List (BitVec 8)) :
    (⟨pre ++ (u ++ t), pre.length + u.length⟩ : Decoder) = after (pre ++ u) t := by
  simp [after]

variable [Inhabited α] {w : α → List (BitVec 8)} {r : α}

theorem unpack_after_readsBack {valid : α → Prop} (h : ReadsBack w valid) {x : α} (hx : valid x)
    (hr : r = default) (pre t : List (BitVec 8)) :
    (after pre (w x ++ t)).unpack r = .ok (x, after (pre ++ w x) t) := by
  subst hr
  simp [unpack_after, h x t hx, after_append]

theorem unpack_after_canonical (h : Canonical w) (hr : r = default) {pre rest : List (BitVec 8)}
    {v : α} {dec : Decoder} (hd : (after pre rest).unpack r = .ok (v, dec)) :
    ∃ t, rest = w v ++ t ∧ dec = after (pre ++ w v) t := by
  subst hr
  obtain ⟨⟨v', n⟩, hu, he⟩ := map_eq_ok.mp ((unpack_after pre rest _).symm.trans hd)
  obtain ⟨t, rfl, rfl⟩ := h _ _ _ hu
  simp only [Prod.mk.injEq] at he
  obtain ⟨rfl, rfl⟩ := he
  exact ⟨t, rfl, after_append _ _ _⟩

theorem unpack_decodesValid {valid : α → Prop} (h : DecodesValid valid) (hr : r = default)
    {dec dec' : Decoder} {v : α} (hd : dec.unpack r = .ok (v, dec')) : valid v := by
  subst hr
  unfold unpack at hd
  split at hd
  · obtain ⟨⟨v', n⟩, hu, he⟩ := map_eq_ok.mp hd
    obtain ⟨rfl, -⟩ := Prod.mk.inj he
    exact h _ _ _ hu
  · cases hd

theorem unpack_overwrites (h : Overwrites α) (dec : Decoder) (r : α) :
    dec.unpack r = dec.unpack (default : α) := by
  simp only [unpack, h r]

end Decoder

def packFields (f₁ : γ → α) (f₂ : γ → β) (x : γ) (enc : Encoder) : Encoder × ℕ :=
  let pos := enc.getSize
  let enc := (Packer.pack (f₁ x) enc).1
  let enc := (Packer.pack (f₂ x) enc).1
  (enc, enc.getSize - pos)

def unpackFields (f₁ : γ → α) (f₂ : γ → β) (mk : α → β → γ) (self : γ) (raw : List (BitVec 8)) :
    Except Abort (γ × ℕ) := do
  let dec := Decoder.new raw
  let (a, dec) ← dec.unpack (f₁ self)
  let (b, dec) ← dec.unpack (f₂ self)
  pure (mk a b, dec.getPos)

section Fields

variable [Packer γ] (f₁ : γ → α) (f₂ : γ → β) (mk : α → β → γ)
  {w₁ : α → List (BitVec 8)} {w₂ : β → List (BitVec 8)}

theorem fields_packsAs (hp : ∀ x enc, Packer.pack x enc = packFields f₁ f₂ x enc)
    (h₁ : PacksAs w₁) (h₂ : PacksAs w₂) : PacksAs fun x ↦ w₁ (f₁ x) ++ w₂ (f₂ x) := by
  intro x enc
  simp [hp, packFields, h₁ _ _, h₂ _ _]

variable [Inhabited α] [Inhabited β] [Inhabited γ]
  (hu : ∀ r b, Packer.unpack r b = unpackFields f₁ f₂ mk r b)
include hu

theorem fields_readsBack {v₁ : α → Prop} {v₂ : β → Prop}
    (h₁ : ReadsBack w₁ v₁) (h₂ : ReadsBack w₂ v₂)
    (hd₁ : f₁ default = default) (hd₂ : f₂ default = default) (hmk : ∀ x, mk (f₁ x) (f₂ x) = x) :
    ReadsBack (fun x ↦ w₁ (f₁ x) ++ w₂ (f₂ x)) fun x ↦ v₁ (f₁ x) ∧ v₂ (f₂ x) := by
  intro x t ⟨hx₁, hx₂⟩
  simp only [hu, unpackFields, Decoder.new_eq, List.append_assoc,
    Decoder.unpack_after_readsBack h₁ hx₁ hd₁, ok_bind,
    Decoder.unpack_after_readsBack h₂ hx₂ hd₂, pure_eq_ok, Decoder.getPos_after, hmk]
  simp

theorem fields_canonical (h₁ : Canonical w₁) (h₂ : Canonical w₂)
    (hd₁ : f₁ default = default) (hd₂ : f₂ default = default)
    (hf₁ : ∀ a b, f₁ (mk a b) = a) (hf₂ : ∀ a b, f₂ (mk a b) = b) :
    Canonical fun x ↦ w₁ (f₁ x) ++ w₂ (f₂ x) := by
  intro b v n h
  simp only [hu, unpackFields, Decoder.new_eq, bind_eq_ok] at h
  obtain ⟨⟨a, dec₁⟩, ha, ⟨c, dec₂⟩, hc, h⟩ := h
  obtain ⟨t₁, rfl, rfl⟩ := Decoder.unpack_after_canonical h₁ hd₁ ha
  obtain ⟨t₂, rfl, rfl⟩ := Decoder.unpack_after_canonical h₂ hd₂ hc
  simp only [pure_eq_ok, Except.ok.injEq, Prod.mk.injEq, Decoder.getPos_after] at h
  obtain ⟨rfl, rfl⟩ := h
  exact ⟨t₂, by simp [hf₁, hf₂], by simp [hf₁, hf₂]⟩

theorem fields_decodesValid {v₁ : α → Prop} {v₂ : β → Prop}
    (h₁ : DecodesValid v₁) (h₂ : DecodesValid v₂)
    (hd₁ : f₁ default = default) (hd₂ : f₂ default = default)
    (hf₁ : ∀ a b, f₁ (mk a b) = a) (hf₂ : ∀ a b, f₂ (mk a b) = b) :
    DecodesValid fun x ↦ v₁ (f₁ x) ∧ v₂ (f₂ x) := by
  intro b v n h
  simp only [hu, unpackFields, bind_eq_ok] at h
  obtain ⟨⟨a, dec₁⟩, ha, ⟨c, dec₂⟩, hc, h⟩ := h
  simp only [pure_eq_ok, Except.ok.injEq, Prod.mk.injEq] at h
  obtain ⟨rfl, -⟩ := h
  rw [hf₁, hf₂]
  exact ⟨Decoder.unpack_decodesValid h₁ hd₁ ha, Decoder.unpack_decodesValid h₂ hd₂ hc⟩

theorem fields_overwrites (h₁ : Overwrites α) (h₂ : Overwrites β) : Overwrites γ := by
  intro r b
  simp only [hu, unpackFields, Decoder.unpack_overwrites h₁ _ (f₁ r),
    Decoder.unpack_overwrites h₁ _ (f₁ default), Decoder.unpack_overwrites h₂ _ (f₂ r),
    Decoder.unpack_overwrites h₂ _ (f₂ default)]

end Fields

theorem foldl_add_size (xs : List α) (n : ℕ) :
    xs.foldl (fun size x ↦ size + Packer.size x) n = n + (xs.map Packer.size).sum := by
  induction xs generalizing n with
  | nil => simp
  | cons x xs ih => simp [ih, Nat.add_assoc]

theorem ReadsBack.mono [Inhabited α] {w : α → List (BitVec 8)} {v v' : α → Prop}
    (h : ReadsBack w v) (hv : ∀ x, v' x → v x) : ReadsBack w v' :=
  fun x t hx ↦ h x t (hv x hx)

end RscdkChain
