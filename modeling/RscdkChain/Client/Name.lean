import Mathlib

namespace RscdkChain

def charmap : List (BitVec 8) :=
  ".12345abcdefghijklmnopqrstuvwxyz".toList.map fun c ↦ BitVec.ofNat 8 c.toNat

def dot : BitVec 8 := BitVec.ofNat 8 '.'.toNat

def n2sStep (st : List (BitVec 8) × BitVec 64) (i : ℕ) : List (BitVec 8) × BitVec 64 :=
  let (s, tmp) := st
  let c :=
    if i = 0 then charmap.getD (tmp &&& 0x0f).toNat 0 else charmap.getD (tmp &&& 0x1f).toNat 0
  (s.set (12 - i) c, if i = 0 then tmp >>> 4 else tmp >>> 5)

def trimEnd (s : List (BitVec 8)) : ℕ → ℕ
  | 0 => 0
  | i + 1 => if s.getD (i + 1) 0 ≠ dot then i + 1 else trimEnd s i

def n2sBytes (value : BitVec 64) : List (BitVec 8) :=
  let s := ((List.range 13).foldl n2sStep (List.replicate 13 dot, value)).1
  s.take (trimEnd s (s.length - 1) + 1)

def n2s (value : BitVec 64) : String :=
  match String.fromUTF8? ⟨((n2sBytes value).map UInt8.mk).toArray⟩ with
  | some v => v
  | none => ""

def nameAlphabet : List Char := ".12345abcdefghijklmnopqrstuvwxyz".toList

def nameSymbol (v j : ℕ) : ℕ := if j < 12 then v / 2 ^ (59 - 5 * j) % 32 else v % 16

def nameChars (v : ℕ) : List Char :=
  (List.range 13).map fun j ↦ nameAlphabet.getD (nameSymbol v j) '.'

/-- The EOSIO name of `v`: its 13 symbols with every trailing `'.'` removed. -/
def eosioName (v : BitVec 64) : String := ⟨(nameChars v.toNat).rdropWhile (· == '.')⟩

def shifted : ℕ → ℕ
  | 0 => 0
  | k + 1 => 5 * k + 4

def base (k : ℕ) : ℕ := if k = 0 then 16 else 32

theorem pow_shifted_succ (k : ℕ) : 2 ^ shifted (k + 1) = 2 ^ shifted k * base k := by
  cases k with
  | zero => rfl
  | succ k =>
    rw [shifted, shifted, base, if_neg (Nat.succ_ne_zero k),
      show 5 * (k + 1) + 4 = 5 * k + 4 + 5 by omega, pow_add]
    rfl

theorem nameSymbol_turn (v : ℕ) {k : ℕ} (hk : k < 13) :
    nameSymbol v (12 - k) = v / 2 ^ shifted k % base k := by
  rcases k with _ | k
  · simp [nameSymbol, shifted, base]
  · simp only [nameSymbol, shifted, base, if_pos (show 12 - (k + 1) < 12 by omega),
      if_neg (Nat.succ_ne_zero k)]
    congr 3
    omega

def filled (v k : ℕ) : List (BitVec 8) :=
  (List.range 13).map fun j ↦ if 13 - k ≤ j then charmap.getD (nameSymbol v j) 0 else dot

@[simp] theorem length_filled (v k : ℕ) : (filled v k).length = 13 := by simp [filled]

theorem filled_set (v : ℕ) {k : ℕ} (hk : k < 13) :
    (filled v k).set (12 - k) (charmap.getD (nameSymbol v (12 - k)) 0) = filled v (k + 1) := by
  apply List.ext_getElem (by simp)
  intro j hj _
  simp only [List.getElem_set, filled, List.getElem_map, List.getElem_range]
  split
  · next h => subst h; simp [show 13 - (k + 1) ≤ 12 - k by omega]
  · next h =>
    congr 1
    simp only [eq_iff_iff]
    omega

theorem toNat_and_mask (x : BitVec 64) {n : ℕ} (hn : n < 64) :
    (x &&& BitVec.ofNat 64 (2 ^ n - 1)).toNat = x.toNat % 2 ^ n := by
  rw [BitVec.toNat_and, BitVec.toNat_ofNat, Nat.mod_eq_of_lt, Nat.and_pow_two_sub_one_eq_mod]
  calc 2 ^ n - 1 < 2 ^ n := Nat.sub_lt (Nat.two_pow_pos n) Nat.one_pos
    _ ≤ 2 ^ 64 := Nat.pow_le_pow_right (by omega) hn.le

theorem toNat_and_0x0f (x : BitVec 64) : (x &&& BitVec.ofNat 64 15).toNat = x.toNat % 16 :=
  toNat_and_mask x (n := 4) (by omega)

theorem toNat_and_0x1f (x : BitVec 64) : (x &&& BitVec.ofNat 64 31).toNat = x.toNat % 32 :=
  toNat_and_mask x (n := 5) (by omega)

theorem n2sStep_turn (v : BitVec 64) {k : ℕ} (hk : k < 13) {tmp : BitVec 64}
    (htmp : tmp.toNat = v.toNat / 2 ^ shifted k) :
    (n2sStep (filled v.toNat k, tmp) k).1 = filled v.toNat (k + 1) ∧
      (n2sStep (filled v.toNat k, tmp) k).2.toNat = v.toNat / 2 ^ shifted (k + 1) := by
  have hsym := nameSymbol_turn v.toNat hk
  rw [pow_shifted_succ, ← Nat.div_div_eq_div_mul, ← htmp]
  rw [← filled_set _ hk, hsym, ← htmp]
  rcases k with _ | k
  · simp [n2sStep, base, toNat_and_0x0f, -BitVec.toNat_and, Nat.shiftRight_eq_div_pow]
  · simp [n2sStep, base, toNat_and_0x1f, -BitVec.toNat_and, Nat.shiftRight_eq_div_pow]

theorem filled_zero (v : ℕ) : filled v 0 = List.replicate 13 dot := by
  refine List.eq_replicate_iff.mpr ⟨by simp, fun b hb ↦ ?_⟩
  obtain ⟨j, hj, rfl⟩ := List.mem_map.mp hb
  simp [show ¬13 ≤ j by simpa using hj]

theorem fill_turns (v : BitVec 64) {k : ℕ} (hk : k ≤ 13) :
    ∃ tmp : BitVec 64, (List.range k).foldl n2sStep (List.replicate 13 dot, v) =
      (filled v.toNat k, tmp) ∧ tmp.toNat = v.toNat / 2 ^ shifted k := by
  induction k with
  | zero => exact ⟨v, by simp [filled_zero], by simp [shifted]⟩
  | succ k ih =>
    obtain ⟨tmp, hrun, htmp⟩ := ih (by omega)
    obtain ⟨h₁, h₂⟩ := n2sStep_turn v (k := k) (by omega) htmp
    refine ⟨_, ?_, h₂⟩
    rw [List.range_succ, List.foldl_append, hrun, List.foldl_cons, List.foldl_nil, ← h₁]

theorem take_trimEnd (s : List (BitVec 8)) {k : ℕ} (hk : k < s.length) :
    s.take (trimEnd s k + 1) =
      if (s.take (k + 1)).rdropWhile (· == dot) = [] then s.take 1
      else (s.take (k + 1)).rdropWhile (· == dot) := by
  induction k with
  | zero =>
    obtain ⟨x, s, rfl⟩ := List.exists_cons_of_length_pos hk
    simp only [trimEnd, List.take_succ_cons, List.take_zero, List.rdropWhile_singleton]
    split <;> simp
  | succ k ih =>
    have hx : s[k + 1]? = some s[k + 1] := List.getElem?_eq_getElem hk
    have hd : s.getD (k + 1) 0 = s[k + 1] := by simp [List.getD_eq_getElem?_getD, hx]
    rw [List.take_succ (n := k + 1), hx, Option.toList_some, trimEnd, hd]
    by_cases h : s[k + 1] = dot
    · rw [if_neg (not_not.mpr h), ih (by omega)]
      simp only [List.rdropWhile_concat, h, beq_self_eq_true, if_true]
    · have hne : ¬(s[k + 1] == dot) = true := by simpa using h
      rw [if_pos h, List.rdropWhile_concat, if_neg hne,
        if_neg (List.append_ne_nil_of_right_ne_nil _ (List.cons_ne_nil _ _)),
        List.take_succ, hx, Option.toList_some]

theorem getElem?_byteArray (l : List UInt8) {i : ℕ} (hi : i < l.length) :
    (⟨l.toArray⟩ : ByteArray)[i]? = some l[i] := by
  simp only [GetElem?.getElem?, decidableGetElem?]
  rw [dif_pos (by simpa [ByteArray.size] using hi)]
  rfl

theorem and_0x80 {c : UInt8} (h : c.toNat < 128) : (c &&& 0x80 == 0) = true := by
  have h0 : c &&& 0x80 = 0 := by
    apply UInt8.eq_of_toBitVec_eq
    apply BitVec.eq_of_toNat_eq
    show (c.toBitVec &&& 0x80#8).toNat = 0
    rw [BitVec.toNat_and, show (0x80#8).toNat = 2 ^ 7 from rfl, Nat.land_comm, Nat.two_pow_and,
      Nat.testBit_lt_two_pow (show c.toBitVec.toNat < 2 ^ 7 from h)]
    rfl
  simp [h0]

theorem utf8DecodeChar?_of_lt (l : List UInt8) {i : ℕ} (hi : i < l.length)
    (h : l[i].toNat < 128) :
    String.utf8DecodeChar? ⟨l.toArray⟩ i = some (Char.ofNat l[i].toNat) := by
  simp only [String.utf8DecodeChar?, getElem?_byteArray l hi, Option.bind_eq_bind, Option.some_bind,
    and_0x80 h, if_true]
  congr 1
  apply Char.ext
  apply UInt32.toNat.inj
  have hv : l[i].toNat.isValidChar := Or.inl (by omega)
  simp [Char.ofNat, hv, Char.ofNatAux]
  rfl

theorem utf8Size_ofNat {n : ℕ} (h : n < 128) : (Char.ofNat n).utf8Size = 1 := by
  have hv : n.isValidChar := Or.inl (by omega)
  simp [Char.utf8Size, Char.ofNat, hv, Char.ofNatAux, UInt32.le_def, BitVec.le_def]
  omega

theorem validateUTF8_loop_of_lt (l : List UInt8) (h : ∀ b ∈ l, b.toNat < 128) (i : ℕ) :
    String.validateUTF8.loop ⟨l.toArray⟩ i = some () := by
  rw [String.validateUTF8.loop]
  split
  · next hi =>
    have hi' : i < l.length := by simpa [ByteArray.size] using hi
    have hb := h _ (List.getElem_mem hi')
    simp only [utf8DecodeChar?_of_lt l hi' hb, utf8Size_ofNat hb, Option.bind_eq_bind,
      Option.some_bind]
    exact validateUTF8_loop_of_lt l h (i + 1)
  · rfl
termination_by l.length - i

theorem fromUTF8_loop_of_lt (l : List UInt8) (h : ∀ b ∈ l, b.toNat < 128) (i : ℕ)
    (acc : String) : String.fromUTF8.loop ⟨l.toArray⟩ i acc =
      ⟨acc.data ++ (l.map fun b ↦ Char.ofNat b.toNat).drop i⟩ := by
  rw [String.fromUTF8.loop]
  split
  · next hi =>
    have hi' : i < l.length := by simpa [ByteArray.size] using hi
    have hb := h _ (List.getElem_mem hi')
    simp only [utf8DecodeChar?_of_lt l hi' hb, utf8Size_ofNat hb, Option.getD_some]
    rw [fromUTF8_loop_of_lt l h (i + 1), List.drop_eq_getElem_cons (n := i) (by simpa using hi')]
    simp [String.push]
  · next hi =>
    have : l.length ≤ i := by simpa [ByteArray.size] using hi
    rw [List.drop_eq_nil_of_le (by simpa using this), List.append_nil]
termination_by l.length - i

theorem fromUTF8?_of_lt (l : List UInt8) (h : ∀ b ∈ l, b.toNat < 128) :
    String.fromUTF8? ⟨l.toArray⟩ = some ⟨l.map fun b ↦ Char.ofNat b.toNat⟩ := by
  have hv : String.validateUTF8 ⟨l.toArray⟩ = true := by
    show (String.validateUTF8.loop _ 0).isSome = true
    rw [validateUTF8_loop_of_lt l h 0]; rfl
  simp [String.fromUTF8?, hv, String.fromUTF8, fromUTF8_loop_of_lt l h 0 ""]

def byteChar (b : BitVec 8) : Char := Char.ofNat b.toNat

theorem charmap_lt : ∀ b ∈ charmap, b.toNat < 128 := by
  simpa using (by decide : charmap.all (fun b ↦ decide (b.toNat < 128)) = true)

theorem dot_mem_charmap : dot ∈ charmap := by decide

theorem nameSymbol_lt (v j : ℕ) : nameSymbol v j < 32 := by
  unfold nameSymbol; split <;> omega

theorem getD_charmap_mem {g : ℕ} (hg : g < 32) : charmap.getD g 0 ∈ charmap := by
  have hl : charmap.length = 32 := by decide
  rw [List.getD_eq_getElem _ _ (hl ▸ hg)]
  exact List.getElem_mem _

theorem mem_filled {v k : ℕ} {b : BitVec 8} (hb : b ∈ filled v k) : b ∈ charmap := by
  obtain ⟨j, -, rfl⟩ := List.mem_map.mp hb
  split
  · exact getD_charmap_mem (nameSymbol_lt v j)
  · exact dot_mem_charmap

theorem fill_eq (v : BitVec 64) :
    ((List.range 13).foldl n2sStep (List.replicate 13 dot, v)).1 = filled v.toNat 13 := by
  obtain ⟨tmp, h, -⟩ := fill_turns v (k := 13) le_rfl
  rw [h]

theorem n2sBytes_eq (v : BitVec 64) :
    n2sBytes v =
      if (filled v.toNat 13).rdropWhile (· == dot) = [] then (filled v.toNat 13).take 1
      else (filled v.toNat 13).rdropWhile (· == dot) := by
  have h := take_trimEnd (filled v.toNat 13) (k := 12) (by simp)
  have h13 : (filled v.toNat 13).take (12 + 1) = filled v.toNat 13 :=
    List.take_of_length_le (by simp)
  rw [h13] at h
  rw [n2sBytes]
  simp only [fill_eq, length_filled]
  exact h

theorem mem_n2sBytes {v : BitVec 64} {b : BitVec 8} (hb : b ∈ n2sBytes v) : b ∈ charmap := by
  rw [n2sBytes_eq] at hb
  split at hb
  · exact mem_filled (List.mem_of_mem_take hb)
  · exact mem_filled ((List.rdropWhile_prefix _ _).subset hb)

theorem fromUTF8?_n2sBytes (v : BitVec 64) :
    String.fromUTF8? ⟨((n2sBytes v).map UInt8.mk).toArray⟩ = some ⟨(n2sBytes v).map byteChar⟩ := by
  rw [fromUTF8?_of_lt _ fun b hb ↦ ?_, List.map_map]
  · rfl
  · obtain ⟨c, hc, rfl⟩ := List.mem_map.mp hb
    exact charmap_lt c (mem_n2sBytes hc)

theorem n2s_eq_map (v : BitVec 64) : n2s v = ⟨(n2sBytes v).map byteChar⟩ := by
  unfold n2s
  rw [fromUTF8?_n2sBytes]

/-- `String::from_utf8` never fails on what `n2s` hands it. -/
theorem fromUTF8_n2sBytes (v : BitVec 64) :
    String.fromUTF8? ⟨((n2sBytes v).map UInt8.mk).toArray⟩ = some (n2s v) := by
  rw [fromUTF8?_n2sBytes, n2s_eq_map]

theorem charmap_char {g : ℕ} (hg : g < 32) :
    byteChar (charmap.getD g 0) = nameAlphabet.getD g '.' := by
  have h : (List.range 32).all (fun g ↦ byteChar (charmap.getD g 0) == nameAlphabet.getD g '.') :=
    by decide
  simpa using List.all_eq_true.mp h g (List.mem_range.mpr hg)

theorem charmap_dot {b : BitVec 8} (hb : b ∈ charmap) : (b == dot) = (byteChar b == '.') := by
  have h : charmap.all (fun b ↦ (b == dot) == (byteChar b == '.')) := by decide
  simpa using List.all_eq_true.mp h b hb

theorem charmap_eq_dot : ∀ g < 32, charmap.getD g 0 = dot → g = 0 := by decide

theorem nameAlphabet_inj {a b : ℕ} (ha : a < 32) (hb : b < 32)
    (h : nameAlphabet.getD a '.' = nameAlphabet.getD b '.') : a = b := by
  have hl : nameAlphabet.length = 32 := by decide
  have hn : nameAlphabet.Nodup := by decide
  rw [List.getD_eq_getElem _ _ (hl ▸ ha), List.getD_eq_getElem _ _ (hl ▸ hb)] at h
  exact hn.getElem_inj_iff.mp h

theorem filled_chars (v : ℕ) : (filled v 13).map byteChar = nameChars v := by
  simp only [filled, nameChars, List.map_map]
  refine List.map_congr_left fun j _ ↦ ?_
  simp only [Nat.sub_self, Nat.zero_le, if_true]
  exact charmap_char (nameSymbol_lt v j)

theorem rdropWhile_map {α β : Type} (f : α → β) {p : α → Bool} {q : β → Bool} (l : List α)
    (h : ∀ x ∈ l, p x = q (f x)) : (l.rdropWhile p).map f = (l.map f).rdropWhile q := by
  induction l using List.reverseRecOn with
  | nil => simp
  | append_singleton l x ih =>
    rw [List.map_append, List.map_singleton, List.rdropWhile_concat, List.rdropWhile_concat,
      ← h x (by simp)]
    split
    · exact ih fun y hy ↦ h y (by simp [hy])
    · simp

theorem div_shifted_eq (v : ℕ) {k : ℕ} (hk : k < 13) :
    v / 2 ^ shifted k = v / 2 ^ shifted (k + 1) * base k + nameSymbol v (12 - k) := by
  rw [nameSymbol_turn v hk, pow_shifted_succ, ← Nat.div_div_eq_div_mul]
  exact (Nat.div_add_mod' _ _).symm

theorem eq_of_nameSymbol {v w : ℕ} (hv : v < 2 ^ 64) (hw : w < 2 ^ 64)
    (h : ∀ j < 13, nameSymbol v j = nameSymbol w j) : v = w := by
  have key : ∀ n ≤ 13, v / 2 ^ shifted (13 - n) = w / 2 ^ shifted (13 - n) := by
    intro n hn
    induction n with
    | zero =>
      show v / 2 ^ 64 = w / 2 ^ 64
      rw [Nat.div_eq_of_lt hv, Nat.div_eq_of_lt hw]
    | succ n ih =>
      rw [show 13 - (n + 1) = 12 - n by omega, div_shifted_eq v (by omega),
        div_shifted_eq w (by omega), show 12 - n + 1 = 13 - n by omega, ih (by omega),
        h _ (by omega)]
  simpa [shifted] using key 13 le_rfl

theorem filled_rdropWhile_ne_nil {v : BitVec 64} (hv : v ≠ 0) :
    (filled v.toNat 13).rdropWhile (· == dot) ≠ [] := by
  intro h
  refine hv (BitVec.eq_of_toNat_eq (eq_of_nameSymbol v.isLt (by simp) fun j hj ↦ ?_))
  have hj' := (List.rdropWhile_eq_nil_iff.mp h) _ (List.mem_map.mpr ⟨j, List.mem_range.mpr hj, rfl⟩)
  simp only [Nat.sub_self, Nat.zero_le, if_true, beq_iff_eq] at hj'
  rw [charmap_eq_dot _ (nameSymbol_lt _ _) hj']
  simp [nameSymbol]

theorem n2s_of_ne_zero {v : BitVec 64} (hv : v ≠ 0) :
    n2s v = ⟨(nameChars v.toNat).rdropWhile (· == '.')⟩ := by
  rw [n2s_eq_map, n2sBytes_eq, if_neg (filled_rdropWhile_ne_nil hv),
    rdropWhile_map byteChar (q := (· == '.')) _ fun _ hb ↦ charmap_dot (mem_filled hb),
    filled_chars]

theorem n2s_zero_eq : n2s 0 = "." := by
  rw [n2s_eq_map, show n2sBytes 0 = [dot] by decide]
  decide

/-- `n2s` of 0 keeps the first `'.'`: the loop `while i != 0` never tests `s[0]`. -/
theorem n2s_zero : n2s 0 = "." ∧ eosioName 0 = "" := ⟨n2s_zero_eq, by decide⟩

/-- For a nonzero value, `n2s` gives the EOSIO name. -/
theorem n2s_eq_eosioName {v : BitVec 64} (hv : v ≠ 0) : n2s v = eosioName v :=
  n2s_of_ne_zero hv

theorem n2s_eq_eosioName_eosio :
    n2s (BitVec.ofNat 64 0x5530EA0000000000) = eosioName (BitVec.ofNat 64 0x5530EA0000000000) :=
  n2s_eq_eosioName (by decide)

theorem rdropWhile_append_rtakeWhile {α : Type} (p : α → Bool) (l : List α) :
    l.rdropWhile p ++ l.rtakeWhile p = l := by
  simp [List.rdropWhile, List.rtakeWhile, ← List.reverse_append]

theorem eq_of_rdropWhile_eq {l₁ l₂ : List Char} {c : Char} (hl : l₁.length = l₂.length)
    (h : l₁.rdropWhile (· == c) = l₂.rdropWhile (· == c)) : l₁ = l₂ := by
  have hrep : ∀ l : List Char,
      l.rtakeWhile (· == c) = List.replicate (l.length - (l.rdropWhile (· == c)).length) c := by
    intro l
    refine List.eq_replicate_iff.mpr ⟨?_, fun x hx ↦ by simpa using List.mem_rtakeWhile_imp hx⟩
    have := congrArg List.length (rdropWhile_append_rtakeWhile (· == c) l)
    simp only [List.length_append] at this
    omega
  rw [← rdropWhile_append_rtakeWhile (· == c) l₁, ← rdropWhile_append_rtakeWhile (· == c) l₂,
    hrep l₁, hrep l₂, h, hl]

theorem n2s_ne_dot {v : BitVec 64} (hv : v ≠ 0) : n2s v ≠ "." := by
  intro h
  rw [n2s_of_ne_zero hv] at h
  have hd : (nameChars v.toNat).rdropWhile (· == '.') = ['.'] := congrArg String.data h
  have hne : (nameChars v.toNat).rdropWhile (· == '.') ≠ [] := by simp [hd]
  have := List.rdropWhile_last_not _ _ hne
  simp [hd] at this

theorem n2s_injective : Function.Injective n2s := by
  intro v w h
  by_cases hv : v = 0 <;> by_cases hw : w = 0
  · rw [hv, hw]
  · exact absurd (h.symm.trans (hv ▸ n2s_zero_eq)) (n2s_ne_dot hw)
  · exact absurd (h.trans (hw ▸ n2s_zero_eq)) (n2s_ne_dot hv)
  · rw [n2s_of_ne_zero hv, n2s_of_ne_zero hw] at h
    have hc := eq_of_rdropWhile_eq (by simp [nameChars]) (congrArg String.data h)
    refine BitVec.eq_of_toNat_eq (eq_of_nameSymbol v.isLt w.isLt fun j hj ↦ ?_)
    have hj' := congrArg (·.getD j '.') hc
    simp only [nameChars, List.getD_eq_getElem?_getD, List.getElem?_map,
      List.getElem?_range hj, Option.map_some', Option.getD_some] at hj'
    exact nameAlphabet_inj (nameSymbol_lt _ _) (nameSymbol_lt _ _)
      (by simpa only [List.getD_eq_getElem?_getD] using hj')

end RscdkChain
