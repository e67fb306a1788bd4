import RscdkChain.Client.Name

namespace RscdkChain

/-- A well-formed account name: 1 to 13 symbols of `nameAlphabet`, a 13th among the first 16,
and no trailing `'.'`. -/
structure WellFormedName (s : String) : Prop where
  ne_nil : s.data ≠ []
  length_le : s.length ≤ 13
  mem_alphabet : ∀ c ∈ s.data, c ∈ nameAlphabet
  thirteenth : ∀ c ∈ s.data.drop 12, c ∈ nameAlphabet.take 16
  getLast_ne : s.data.getLast? ≠ some '.'

instance : DecidablePred WellFormedName := fun s ↦
  decidable_of_iff (s.data ≠ [] ∧ s.length ≤ 13 ∧ (∀ c ∈ s.data, c ∈ nameAlphabet) ∧
      (∀ c ∈ s.data.drop 12, c ∈ nameAlphabet.take 16) ∧ s.data.getLast? ≠ some '.')
    ⟨fun ⟨h₁, h₂, h₃, h₄, h₅⟩ ↦ ⟨h₁, h₂, h₃, h₄, h₅⟩,
      fun ⟨h₁, h₂, h₃, h₄, h₅⟩ ↦ ⟨h₁, h₂, h₃, h₄, h₅⟩⟩

example : WellFormedName "eosio.token" := by decide

example : ¬WellFormedName "eosio." := by decide

theorem getD_nameAlphabet_mem {g : ℕ} (hg : g < 32) : nameAlphabet.getD g '.' ∈ nameAlphabet := by
  have hl : nameAlphabet.length = 32 := by decide
  rw [List.getD_eq_getElem _ _ (hl ▸ hg)]
  exact List.getElem_mem _

theorem dot_mem_nameAlphabet : '.' ∈ nameAlphabet := by decide

theorem indexOf_nameAlphabet {c : Char} (hc : c ∈ nameAlphabet) :
    nameAlphabet.indexOf c < 32 ∧ nameAlphabet.getD (nameAlphabet.indexOf c) '.' = c := by
  have h : nameAlphabet.all fun c ↦
      decide (nameAlphabet.indexOf c < 32) && nameAlphabet.getD (nameAlphabet.indexOf c) '.' == c :=
    by decide
  simpa using List.all_eq_true.mp h c hc

theorem getD_nameAlphabet_mem_take {g : ℕ} (hg : g < 16) :
    nameAlphabet.getD g '.' ∈ nameAlphabet.take 16 := by
  have h : (List.range 16).all fun g ↦ decide (nameAlphabet.getD g '.' ∈ nameAlphabet.take 16) :=
    by decide
  simpa using List.all_eq_true.mp h g (List.mem_range.mpr hg)

theorem indexOf_lt_sixteen {c : Char} (hc : c ∈ nameAlphabet.take 16) :
    nameAlphabet.indexOf c < 16 := by
  have h : (nameAlphabet.take 16).all fun c ↦ decide (nameAlphabet.indexOf c < 16) := by decide
  simpa using List.all_eq_true.mp h c hc

theorem mem_nameChars {v : ℕ} {c : Char} (hc : c ∈ nameChars v) : c ∈ nameAlphabet := by
  obtain ⟨j, -, rfl⟩ := List.mem_map.mp hc
  exact getD_nameAlphabet_mem (nameSymbol_lt v j)

@[simp] theorem length_nameChars (v : ℕ) : (nameChars v).length = 13 := by simp [nameChars]

theorem drop_nameChars (v : ℕ) : (nameChars v).drop 12 = [nameAlphabet.getD (v % 16) '.'] := by
  simp [nameChars, nameSymbol, List.range_succ]

theorem nameChars_rdropWhile_ne_nil {v : BitVec 64} (hv : v ≠ 0) :
    (nameChars v.toNat).rdropWhile (· == '.') ≠ [] := by
  rw [← filled_chars, ← rdropWhile_map byteChar _ fun _ hb ↦ charmap_dot (mem_filled hb)]
  simpa using filled_rdropWhile_ne_nil hv

theorem wellFormedName_nameChars {v : BitVec 64} (hv : v ≠ 0) :
    WellFormedName ⟨(nameChars v.toNat).rdropWhile (· == '.')⟩ := by
  have hp : (nameChars v.toNat).rdropWhile (· == '.') <+: nameChars v.toNat :=
    List.rdropWhile_prefix _ _
  have hne := nameChars_rdropWhile_ne_nil hv
  refine ⟨hne, by simpa using hp.length_le, fun c hc ↦ mem_nameChars (hp.subset hc),
    fun c hc ↦ ?_, ?_⟩
  · obtain ⟨k, hk⟩ := hp
    have hc' : c ∈ (nameChars v.toNat).drop 12 := by
      rw [← hk, List.drop_append_eq_append_drop]
      exact List.mem_append_left _ hc
    rw [drop_nameChars, List.mem_singleton] at hc'
    exact hc' ▸ getD_nameAlphabet_mem_take (Nat.mod_lt _ (by norm_num))
  · rw [List.getLast?_eq_getLast _ hne]
    simpa using List.rdropWhile_last_not _ _ hne

def padName (s : String) : List Char := s.data ++ List.replicate (13 - s.length) '.'

def nameDigit (s : String) (j : ℕ) : ℕ := nameAlphabet.indexOf ((padName s).getD j '.')

def nameValue (s : String) : ℕ :=
  16 * Nat.ofDigits 32 ((List.range 12).map fun k ↦ nameDigit s (11 - k)) + nameDigit s 12

theorem rdropWhile_append_replicate (l : List Char) (c : Char) (n : ℕ) :
    (l ++ List.replicate n c).rdropWhile (· == c) = l.rdropWhile (· == c) := by
  induction n with
  | zero => simp
  | succ n ih =>
    rw [List.replicate_succ', ← List.append_assoc, List.rdropWhile_concat_pos _ _ _ (by simp), ih]

section Value

variable {s : String} (h : WellFormedName s)
include h

theorem length_padName : (padName s).length = 13 := by
  simp [padName]; have := h.length_le; omega

theorem mem_padName {c : Char} (hc : c ∈ padName s) : c ∈ nameAlphabet := by
  rcases List.mem_append.mp hc with hc | hc
  · exact h.mem_alphabet c hc
  · rw [List.eq_of_mem_replicate hc]; exact dot_mem_nameAlphabet

theorem getD_padName_mem (j : ℕ) : (padName s).getD j '.' ∈ nameAlphabet := by
  rcases lt_or_le j 13 with hj | hj
  · rw [List.getD_eq_getElem _ _ (by rw [length_padName h]; exact hj)]
    exact mem_padName h (List.getElem_mem _)
  · rw [List.getD_eq_default _ _ (by rw [length_padName h]; exact hj)]
    exact dot_mem_nameAlphabet

theorem nameDigit_lt (j : ℕ) : nameDigit s j < 32 :=
  (indexOf_nameAlphabet (getD_padName_mem h j)).1

theorem nameDigit_twelve_lt : nameDigit s 12 < 16 := by
  unfold nameDigit padName
  rcases lt_or_le s.length 13 with hl | hl
  · rw [List.getD_append_right _ _ _ _ (show s.length ≤ 12 by omega)]
    simp only [List.getD_eq_getElem?_getD, List.getElem?_replicate]
    split <;> decide
  · have h12 : 12 < s.length := by have := h.length_le; omega
    rw [List.getD_append _ _ _ _ h12, List.getD_eq_getElem _ _ h12]
    apply indexOf_lt_sixteen
    apply h.thirteenth
    rw [List.mem_iff_getElem]
    exact ⟨0, by simp; omega, by simp⟩

theorem nameDigits_lt : ∀ x ∈ (List.range 12).map fun k ↦ nameDigit s (11 - k), x < 32 := by
  simpa using fun k _ ↦ nameDigit_lt h (11 - k)

theorem nameValue_lt : nameValue s < 2 ^ 64 := by
  have hx : Nat.ofDigits 32 ((List.range 12).map fun k ↦ nameDigit s (11 - k)) < 32 ^ 12 := by
    simpa using Nat.ofDigits_lt_base_pow_length (by norm_num) (nameDigits_lt h)
  have h12 := nameDigit_twelve_lt h
  unfold nameValue
  norm_num at hx ⊢
  omega

theorem nameSymbol_nameValue {j : ℕ} (hj : j < 13) :
    nameSymbol (nameValue s) j = nameDigit s j := by
  have h12 := nameDigit_twelve_lt h
  unfold nameSymbol nameValue
  split
  · next hj' =>
    have hdig := nameDigits_lt h
    set L := (List.range 12).map fun k ↦ nameDigit s (11 - k) with hL
    have hpow : 2 ^ (59 - 5 * j) = 16 * 32 ^ (11 - j) := by
      rw [show 59 - 5 * j = 4 + 5 * (11 - j) by omega, pow_add, pow_mul]; norm_num
    have hlen : 11 - j < L.length := by simp [hL]; omega
    rw [hpow, ← Nat.div_div_eq_div_mul, show (16 * Nat.ofDigits 32 L + nameDigit s 12) / 16 =
        Nat.ofDigits 32 L by omega, Nat.ofDigits_div_pow_eq_ofDigits_drop _ (by norm_num) _ hdig,
      Nat.ofDigits_mod_eq_head!, List.drop_eq_getElem_cons hlen, List.head!_cons,
      Nat.mod_eq_of_lt (hdig _ (List.getElem_mem _))]
    simp [hL, show 11 - (11 - j) = j by omega]
  · next hj' =>
    rw [show j = 12 by omega]
    omega

theorem nameChars_nameValue : nameChars (nameValue s) = padName s := by
  apply List.ext_getElem (by simp [length_padName h])
  intro j hj hj'
  simp only [nameChars, List.getElem_map, List.getElem_range]
  rw [nameSymbol_nameValue h (by simpa using hj), nameDigit,
    (indexOf_nameAlphabet (getD_padName_mem h j)).2, List.getD_eq_getElem]

theorem rdropWhile_padName : (padName s).rdropWhile (· == '.') = s.data := by
  rw [padName, rdropWhile_append_replicate, List.rdropWhile_eq_self_iff]
  intro hl
  have := h.getLast_ne
  rw [List.getLast?_eq_getLast _ hl] at this
  simpa using this

theorem n2s_nameValue : n2s (BitVec.ofNat 64 (nameValue s)) = s := by
  have hv : (BitVec.ofNat 64 (nameValue s)).toNat = nameValue s := by
    rw [BitVec.toNat_ofNat]; exact Nat.mod_eq_of_lt (nameValue_lt h)
  have hne : BitVec.ofNat 64 (nameValue s) ≠ 0 := by
    intro h0
    have hd := rdropWhile_padName h
    rw [← nameChars_nameValue h, ← hv, h0] at hd
    exact h.ne_nil (hd.symm.trans (by decide))
  rw [n2s_of_ne_zero hne, hv, nameChars_nameValue h, rdropWhile_padName h]

end Value

/-- `n2s` returns `"."` for 0 and a well-formed name otherwise, and every well-formed name. -/
theorem n2s_range (s : String) : (∃ v, n2s v = s) ↔ s = "." ∨ WellFormedName s := by
  constructor
  · rintro ⟨v, rfl⟩
    by_cases hv : v = 0
    · exact .inl (hv ▸ n2s_zero_eq)
    · rw [n2s_of_ne_zero hv]
      exact .inr (wellFormedName_nameChars hv)
  · rintro (rfl | h)
    · exact ⟨0, n2s_zero_eq⟩
    · exact ⟨_, n2s_nameValue h⟩

end RscdkChain
