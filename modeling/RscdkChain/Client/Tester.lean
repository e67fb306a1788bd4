import RscdkChain.Serializer

namespace RscdkChain

variable {F E α : Type}

def unwrap : Except E α → Except Abort α
  | .ok a => .ok a
  | .error _ => .error .panic

@[simp] theorem unwrap_ok (a : α) : unwrap (.ok a : Except E α) = .ok a := rfl

theorem getElem?_concat_eq_some {l : List α} {x y : α} {j : ℕ} :
    (l ++ [x])[j]? = some y ↔ l[j]? = some y ∨ (j = l.length ∧ x = y) := by
  rcases lt_trichotomy j l.length with hj | rfl | hj
  · simp [List.getElem?_append_left hj, hj.ne]
  · simp
  · simp [List.getElem?_eq_none (show (l ++ [x]).length ≤ j by simp; omega),
      List.getElem?_eq_none hj.le, hj.ne']

theorem getElem?_set_eq_some {l : List α} {i j : ℕ} {x y : α} :
    (l.set i x)[j]? = some y ↔ (j = i ∧ i < l.length ∧ x = y) ∨ (j ≠ i ∧ l[j]? = some y) := by
  rw [List.getElem?_set]
  by_cases h : i = j <;> simp [h, eq_comm]

theorem concat_pair {β γ : Type} {l : List β} {m : List γ} {x t : β} {y o : γ} {i : ℕ}
    (hl : l.length = m.length) (ht : (l ++ [x])[i]? = some t) (ho : (m ++ [y])[i]? = some o) :
    (l[i]? = some t ∧ m[i]? = some o) ∨ (i = l.length ∧ t = x ∧ o = y) := by
  rcases getElem?_concat_eq_some.mp ht with ht | ⟨rfl, rfl⟩ <;>
    rcases getElem?_concat_eq_some.mp ho with ho | ⟨hi, rfl⟩
  · exact .inl ⟨ht, ho⟩
  · simp [hi, ← hl] at ht
  · simp [hl] at ho
  · exact .inr ⟨rfl, rfl, rfl⟩

abbrev ApplyMap (F : Type) := AList fun _ : String ↦ F

abbrev ApplyRegistry (F : Type) := AList fun _ : ℤ ↦ ApplyMap F

def setApply (m : ApplyMap F) (contract : String) : Option F → ApplyMap F
  | some f => m.insert contract f
  | none => m.erase contract

structure ChainTester where
  id : ℤ
  deriving DecidableEq, Repr

namespace ChainTester

def new (reg : ApplyRegistry F) (newChain : Except E ℤ) :
    Except Abort (ApplyRegistry F × ChainTester) := do
  let id ← unwrap newChain
  pure (reg.insert id ∅, { id })

def newEx (reg : ApplyRegistry F) (newChain : Except E ℤ) :
    Except Abort (ApplyRegistry F × ChainTester) := do
  let id ← unwrap newChain
  pure (reg, { id })

def free (self : ChainTester) (reg : ApplyRegistry F) (freeChain : Except E Unit) :
    Except Abort (ApplyRegistry F) := do
  let reg := reg.erase self.id
  unwrap freeChain
  pure reg

def setNativeApply (self : ChainTester) (reg : ApplyRegistry F) (contract : String)
    (apply : Option F) (enableDebug : Except E Unit) :
    Except Abort (ApplyRegistry F × Except E Unit) :=
  match reg.lookup self.id with
  | some applyMap => .ok (reg.insert self.id (setApply applyMap contract apply), enableDebug)
  | none => .error .panic

end ChainTester

inductive TesterOp (F E : Type)
  | new (reply : Except E ℤ)
  | newEx (reply : Except E ℤ)
  | free (i : ℕ) (reply : Except E Unit)
  | setNativeApply (i : ℕ) (contract : String) (apply : Option F) (reply : Except E Unit)

structure Harness (F : Type) where
  reg : ApplyRegistry F
  testers : List ChainTester

namespace Harness

def init : Harness F := ⟨∅, []⟩

def step (h : Harness F) : TesterOp F E → Except Abort (Harness F)
  | .new r => do
    let (reg, t) ← ChainTester.new h.reg r
    pure ⟨reg, h.testers ++ [t]⟩
  | .newEx r => do
    let (reg, t) ← ChainTester.newEx h.reg r
    pure ⟨reg, h.testers ++ [t]⟩
  | .free i r =>
    match h.testers[i]? with
    | some t => do
      let reg ← t.free h.reg r
      pure { h with reg }
    | none => .error .panic
  | .setNativeApply i c f r =>
    match h.testers[i]? with
    | some t => do
      let (reg, _) ← t.setNativeApply h.reg c f r
      pure { h with reg }
    | none => .error .panic

variable {h h' : Harness F} {r : Except E ℤ} {i : ℕ} {u : Except E Unit} {c : String}
  {f : Option F}

theorem step_new : h.step (.new r) = .ok h' ↔
    ∃ id, r = .ok id ∧ h' = ⟨h.reg.insert id ∅, h.testers ++ [⟨id⟩]⟩ := by
  cases r with
  | error e => exact ⟨fun h ↦ (nomatch h), fun ⟨_, h, _⟩ ↦ nomatch h⟩
  | ok id =>
    exact ⟨fun h ↦ ⟨id, rfl, (Except.ok.inj h).symm⟩, fun ⟨_, h₁, h₂⟩ ↦ by cases h₁; rw [h₂]; rfl⟩

theorem step_newEx : h.step (.newEx r) = .ok h' ↔
    ∃ id, r = .ok id ∧ h' = ⟨h.reg, h.testers ++ [⟨id⟩]⟩ := by
  cases r with
  | error e => exact ⟨fun h ↦ (nomatch h), fun ⟨_, h, _⟩ ↦ nomatch h⟩
  | ok id =>
    exact ⟨fun h ↦ ⟨id, rfl, (Except.ok.inj h).symm⟩, fun ⟨_, h₁, h₂⟩ ↦ by cases h₁; rw [h₂]; rfl⟩

theorem step_free : h.step (.free i u) = .ok h' ↔
    ∃ t, h.testers[i]? = some t ∧ u = .ok () ∧ h' = ⟨h.reg.erase t.id, h.testers⟩ := by
  cases ht : h.testers[i]? with
  | none => simp [step, ht]
  | some t =>
    cases u with
    | error e => simp [step, ht, ChainTester.free, unwrap, bind, Except.bind]
    | ok v =>
      simp [step, ht, ChainTester.free, unwrap, bind, Except.bind, pure, Except.pure, eq_comm]

theorem step_setNativeApply : h.step (.setNativeApply i c f u) = .ok h' ↔
    ∃ t m, h.testers[i]? = some t ∧ h.reg.lookup t.id = some m ∧
      h' = ⟨h.reg.insert t.id (setApply m c f), h.testers⟩ := by
  cases ht : h.testers[i]? with
  | none => simp [step, ht]
  | some t =>
    cases hm : h.reg.lookup t.id with
    | none => simp [step, ht, ChainTester.setNativeApply, hm, bind, Except.bind]
    | some m =>
      simp [step, ht, ChainTester.setNativeApply, hm, bind, Except.bind, pure, Except.pure, eq_comm]

end Harness

/-- What a test expects of one of its testers. -/
inductive Own (F : Type)
  | registered (m : ApplyMap F)
  | unregistered
  | freed

namespace Own

def applyMap : Own F → Option (ApplyMap F)
  | registered m => some m
  | _ => none

def step (a : List (Own F)) : TesterOp F E → Except Abort (List (Own F))
  | .new r => do
    let _ ← unwrap r
    pure (a ++ [registered ∅])
  | .newEx r => do
    let _ ← unwrap r
    pure (a ++ [unregistered])
  | .free i r =>
    match a[i]? with
    | some _ => do
      unwrap r
      pure (a.set i freed)
    | none => .error .panic
  | .setNativeApply i c f _ =>
    match a[i]? with
    | some (registered m) => .ok (a.set i (registered (setApply m c f)))
    | _ => .error .panic

variable {a a' : List (Own F)} {r : Except E ℤ} {i : ℕ} {u : Except E Unit} {c : String}
  {f : Option F}

theorem step_new : step a (.new r) = .ok a' ↔ ∃ id, r = .ok id ∧ a' = a ++ [registered ∅] := by
  cases r with
  | error e => exact ⟨fun h ↦ (nomatch h), fun ⟨_, h, _⟩ ↦ nomatch h⟩
  | ok id => exact ⟨fun h ↦ ⟨id, rfl, (Except.ok.inj h).symm⟩, fun ⟨_, _, h⟩ ↦ by rw [h]; rfl⟩

theorem step_newEx : step a (.newEx r) = .ok a' ↔ ∃ id, r = .ok id ∧ a' = a ++ [unregistered] := by
  cases r with
  | error e => exact ⟨fun h ↦ (nomatch h), fun ⟨_, h, _⟩ ↦ nomatch h⟩
  | ok id => exact ⟨fun h ↦ ⟨id, rfl, (Except.ok.inj h).symm⟩, fun ⟨_, _, h⟩ ↦ by rw [h]; rfl⟩

theorem step_free : step a (.free i u) = .ok a' ↔
    (∃ o, a[i]? = some o) ∧ u = .ok () ∧ a' = a.set i freed := by
  cases ho : a[i]? with
  | none => simp [step, ho]
  | some o =>
    cases u with
    | error e => simp [step, ho, unwrap, bind, Except.bind]
    | ok v => simp [step, ho, unwrap, bind, Except.bind, pure, Except.pure, eq_comm]

theorem step_setNativeApply : step a (.setNativeApply i c f u) = .ok a' ↔
    ∃ m, a[i]? = some (registered m) ∧ a' = a.set i (registered (setApply m c f)) := by
  cases ho : a[i]? with
  | none => simp [step, ho]
  | some o => cases o <;> simp [step, ho, eq_comm]

end Own

/-- The registry holds, for each tester not freed, the apply map its test expects, and no other
entry. -/
structure Sim (h : Harness F) (a : List (Own F)) : Prop where
  length_eq : h.testers.length = a.length
  lookup_eq : ∀ {i : ℕ} {t : ChainTester} {o : Own F}, h.testers[i]? = some t →
    a[i]? = some o → o ≠ .freed → h.reg.lookup t.id = o.applyMap
  mem_reg : ∀ {k : ℤ}, k ∈ h.reg → ∃ (i : ℕ) (t : ChainTester) (m : ApplyMap F),
    h.testers[i]? = some t ∧ a[i]? = some (.registered m) ∧ t.id = k
  id_inj : ∀ {i j : ℕ} {t u : ChainTester} {o p : Own F}, h.testers[i]? = some t →
    a[i]? = some o → o ≠ .freed → h.testers[j]? = some u → a[j]? = some p → p ≠ .freed →
    t.id = u.id → i = j

def FreshId (h : Harness F) (a : List (Own F)) (id : ℤ) : Prop :=
  ∀ {i : ℕ} {t : ChainTester} {o : Own F}, h.testers[i]? = some t → a[i]? = some o →
    o ≠ .freed → t.id ≠ id

/-- The server's contract and the tests' discipline for one call. -/
def Admissible (h : Harness F) (a : List (Own F)) : TesterOp F E → Prop
  | .new r | .newEx r => ∀ id, r = .ok id → FreshId h a id
  | .free i _ | .setNativeApply i _ _ _ => a[i]? ≠ some .freed

inductive Reachable (E : Type) : Harness F → List (Own F) → Prop
  | init : Reachable E .init []
  | step {h h' : Harness F} {a a' : List (Own F)} {x : TesterOp F E} :
    Reachable E h a → Admissible h a x → h.step x = .ok h' → Own.step a x = .ok a' →
    Reachable E h' a'

theorem Own.of_set_freed {a : List (Own F)} {i j : ℕ} {p : Own F}
    (hp : (a.set i .freed)[j]? = some p) (hne : p ≠ .freed) : j ≠ i ∧ a[j]? = some p := by
  rcases getElem?_set_eq_some.mp hp with ⟨-, -, rfl⟩ | hp
  · exact absurd rfl hne
  · exact hp

namespace Sim

variable {h : Harness F} {a : List (Own F)} (hs : Sim h a)
include hs

theorem own_of_tester {i : ℕ} {t : ChainTester} (ht : h.testers[i]? = some t) :
    ∃ o, a[i]? = some o := by
  obtain ⟨hi, -⟩ := List.getElem?_eq_some_iff.mp ht
  have := hs.length_eq
  exact Option.ne_none_iff_exists'.mp (by rw [Ne, List.getElem?_eq_none_iff]; omega)

theorem tester_of_own {i : ℕ} {o : Own F} (ho : a[i]? = some o) :
    ∃ t, h.testers[i]? = some t := by
  obtain ⟨hi, -⟩ := List.getElem?_eq_some_iff.mp ho
  have := hs.length_eq
  exact Option.ne_none_iff_exists'.mp (by rw [Ne, List.getElem?_eq_none_iff]; omega)

theorem not_mem_reg {id : ℤ} (hfresh : FreshId h a id) : id ∉ h.reg := fun hk ↦ by
  obtain ⟨i, t, m, ht, ho, rfl⟩ := hs.mem_reg hk
  exact hfresh ht ho (by simp) rfl

theorem id_inj_concat {id : ℤ} {x : Own F} (hfresh : FreshId h a id) {i j : ℕ}
    {t u : ChainTester} {o p : Own F} (ht : (h.testers ++ [⟨id⟩])[i]? = some t)
    (ho : (a ++ [x])[i]? = some o) (hne : o ≠ .freed) (hu : (h.testers ++ [⟨id⟩])[j]? = some u)
    (hp : (a ++ [x])[j]? = some p) (hne' : p ≠ .freed) (hid : t.id = u.id) : i = j := by
  rcases concat_pair hs.length_eq ht ho with ⟨ht, ho⟩ | ⟨rfl, rfl, -⟩ <;>
    rcases concat_pair hs.length_eq hu hp with ⟨hu, hp⟩ | ⟨rfl, rfl, -⟩
  · exact hs.id_inj ht ho hne hu hp hne' hid
  · exact absurd hid (hfresh ht ho hne)
  · exact absurd hid.symm (hfresh hu hp hne')
  · rfl

theorem new {id : ℤ} (hfresh : FreshId h a id) :
    Sim ⟨h.reg.insert id ∅, h.testers ++ [⟨id⟩]⟩ (a ++ [.registered ∅]) where
  length_eq := by simp [hs.length_eq]
  lookup_eq ht ho hne := by
    rcases concat_pair hs.length_eq ht ho with ⟨ht, ho⟩ | ⟨-, rfl, rfl⟩
    · rw [AList.lookup_insert_ne (hfresh ht ho hne)]
      exact hs.lookup_eq ht ho hne
    · simp [Own.applyMap]
  mem_reg hk := by
    rcases (AList.mem_insert _).mp hk with rfl | hk
    · exact ⟨h.testers.length, _, ∅, by simp, by simp [hs.length_eq], rfl⟩
    · obtain ⟨i, t, m, ht, ho, rfl⟩ := hs.mem_reg hk
      exact ⟨i, t, m, getElem?_concat_eq_some.mpr (.inl ht),
        getElem?_concat_eq_some.mpr (.inl ho), rfl⟩
  id_inj := hs.id_inj_concat hfresh

theorem newEx {id : ℤ} (hfresh : FreshId h a id) :
    Sim ⟨h.reg, h.testers ++ [⟨id⟩]⟩ (a ++ [.unregistered]) where
  length_eq := by simp [hs.length_eq]
  lookup_eq ht ho hne := by
    rcases concat_pair hs.length_eq ht ho with ⟨ht, ho⟩ | ⟨-, rfl, rfl⟩
    · exact hs.lookup_eq ht ho hne
    · exact AList.lookup_eq_none.mpr (hs.not_mem_reg hfresh)
  mem_reg hk := by
    obtain ⟨i, t, m, ht, ho, rfl⟩ := hs.mem_reg hk
    exact ⟨i, t, m, getElem?_concat_eq_some.mpr (.inl ht),
      getElem?_concat_eq_some.mpr (.inl ho), rfl⟩
  id_inj := hs.id_inj_concat hfresh

theorem free {i : ℕ} {t : ChainTester} {o : Own F} (ht : h.testers[i]? = some t)
    (ho : a[i]? = some o) (hne : o ≠ .freed) :
    Sim ⟨h.reg.erase t.id, h.testers⟩ (a.set i .freed) where
  length_eq := by simp [hs.length_eq]
  lookup_eq hu hp hne' := by
    obtain ⟨hji, hp⟩ := Own.of_set_freed hp hne'
    rw [AList.lookup_erase_ne fun hid ↦ hji (hs.id_inj hu hp hne' ht ho hne hid)]
    exact hs.lookup_eq hu hp hne'
  mem_reg hk := by
    obtain ⟨hk, hk'⟩ := AList.mem_erase.mp hk
    obtain ⟨j, u, m, hu, hp, rfl⟩ := hs.mem_reg hk'
    have hji : j ≠ i := by rintro rfl; simp_all
    exact ⟨j, u, m, hu, by rw [List.getElem?_set_ne hji.symm, hp], rfl⟩
  id_inj hu hp hne' hv hq hne'' hid := by
    obtain ⟨-, hp⟩ := Own.of_set_freed hp hne'
    obtain ⟨-, hq⟩ := Own.of_set_freed hq hne''
    exact hs.id_inj hu hp hne' hv hq hne'' hid

theorem setNativeApply {i : ℕ} {t : ChainTester} {m : ApplyMap F} (ht : h.testers[i]? = some t)
    (ho : a[i]? = some (.registered m)) (c : String) (f : Option F) :
    Sim ⟨h.reg.insert t.id (setApply m c f), h.testers⟩ (a.set i (.registered (setApply m c f)))
    where
  length_eq := by simp [hs.length_eq]
  lookup_eq hu hp hne := by
    rcases getElem?_set_eq_some.mp hp with ⟨rfl, -, rfl⟩ | ⟨hji, hp⟩
    · rw [ht] at hu; cases hu
      simp [Own.applyMap]
    · rw [AList.lookup_insert_ne fun hid ↦ hji (hs.id_inj hu hp hne ht ho (by simp) hid)]
      exact hs.lookup_eq hu hp hne
  mem_reg hk := by
    have hi : (a.set i (.registered (setApply m c f)))[i]? = some (.registered (setApply m c f)) :=
      by simp [List.getElem?_set, (List.getElem?_eq_some_iff.mp ho).1]
    rcases (AList.mem_insert _).mp hk with rfl | hk
    · exact ⟨i, t, _, ht, hi, rfl⟩
    · obtain ⟨j, u, m', hu, hp, rfl⟩ := hs.mem_reg hk
      by_cases hji : j = i
      · subst hji
        exact ⟨j, u, _, hu, hi, rfl⟩
      · exact ⟨j, u, m', hu, by rw [List.getElem?_set_ne (Ne.symm hji), hp], rfl⟩
  id_inj hu hp hne hv hq hne' hid := by
    have live : ∀ {j} {p : Own F}, (a.set i (.registered (setApply m c f)))[j]? = some p →
        p ≠ .freed → ∃ p' : Own F, a[j]? = some p' ∧ p' ≠ .freed := fun hp hne ↦ by
      rcases getElem?_set_eq_some.mp hp with ⟨rfl, -, rfl⟩ | ⟨-, hp⟩
      · exact ⟨_, ho, by simp⟩
      · exact ⟨_, hp, hne⟩
    obtain ⟨p', hp', hne₁⟩ := live hp hne
    obtain ⟨q', hq', hne₂⟩ := live hq hne'
    exact hs.id_inj hu hp' hne₁ hv hq' hne₂ hid

variable {op : TesterOp F E} {h' : Harness F} {a' : List (Own F)}

theorem step (hop : Admissible h a op) (h₁ : h.step op = .ok h') (h₂ : Own.step a op = .ok a') :
    Sim h' a' := by
  cases op with
  | new r =>
    obtain ⟨id, rfl, rfl⟩ := Harness.step_new.mp h₁
    obtain ⟨-, -, rfl⟩ := Own.step_new.mp h₂
    exact hs.new (hop id rfl)
  | newEx r =>
    obtain ⟨id, rfl, rfl⟩ := Harness.step_newEx.mp h₁
    obtain ⟨-, -, rfl⟩ := Own.step_newEx.mp h₂
    exact hs.newEx (hop id rfl)
  | free i u =>
    obtain ⟨t, ht, -, rfl⟩ := Harness.step_free.mp h₁
    obtain ⟨⟨o, ho⟩, -, rfl⟩ := Own.step_free.mp h₂
    exact hs.free ht ho fun h ↦ hop (h ▸ ho)
  | setNativeApply i c f u =>
    obtain ⟨t, m, ht, hm, rfl⟩ := Harness.step_setNativeApply.mp h₁
    obtain ⟨m', ho, rfl⟩ := Own.step_setNativeApply.mp h₂
    have hmm : some m = some m' := hm.symm.trans (hs.lookup_eq ht ho (by simp))
    cases hmm
    exact hs.setNativeApply ht ho c f

theorem step_ok_iff (hop : Admissible h a op) :
    (∃ h', h.step op = .ok h') ↔ ∃ a', Own.step a op = .ok a' := by
  cases op with
  | new r | newEx r =>
    simp only [Harness.step_new, Own.step_new, Harness.step_newEx, Own.step_newEx]
    exact ⟨fun ⟨_, id, hr, _⟩ ↦ ⟨_, id, hr, rfl⟩, fun ⟨_, id, hr, _⟩ ↦ ⟨_, id, hr, rfl⟩⟩
  | free i u =>
    simp only [Harness.step_free, Own.step_free]
    constructor
    · rintro ⟨_, t, ht, hu, -⟩
      exact ⟨_, hs.own_of_tester ht, hu, rfl⟩
    · rintro ⟨_, ⟨o, ho⟩, hu, -⟩
      obtain ⟨t, ht⟩ := hs.tester_of_own ho
      exact ⟨_, t, ht, hu, rfl⟩
  | setNativeApply i c f u =>
    simp only [Harness.step_setNativeApply, Own.step_setNativeApply]
    constructor
    · rintro ⟨_, t, m, ht, hm, -⟩
      obtain ⟨o, ho⟩ := hs.own_of_tester ht
      rw [hs.lookup_eq ht ho fun h ↦ hop (h ▸ ho)] at hm
      cases o with
      | registered m' => exact ⟨_, m', ho, rfl⟩
      | unregistered => cases hm
      | freed => cases hm
    · rintro ⟨_, m, ho, -⟩
      obtain ⟨t, ht⟩ := hs.tester_of_own ho
      exact ⟨_, t, m, ht, by rw [hs.lookup_eq ht ho (by simp)]; rfl, rfl⟩

end Sim

theorem Sim.init : Sim (Harness.init : Harness F) [] where
  length_eq := rfl
  lookup_eq ht := by simp [Harness.init] at ht
  mem_reg hk := absurd hk (AList.not_mem_empty _)
  id_inj ht := by simp [Harness.init] at ht

namespace Reachable

variable {h : Harness F} {a : List (Own F)}

theorem sim (hr : Reachable E h a) : Sim h a := by
  induction hr with
  | init => exact Sim.init
  | step _ hop h₁ h₂ ih => exact ih.step hop h₁ h₂

/-- The registry refines the testers' own apply maps over every admissible run, and each further
call panics exactly when the same call on the expected maps does. -/
theorem registry_refines (hr : Reachable E h a) :
    Sim h a ∧ ∀ op : TesterOp F E, Admissible h a op →
      ((∃ h', h.step op = .ok h') ↔ ∃ a', Own.step a op = .ok a') :=
  ⟨hr.sim, fun _ hop ↦ hr.sim.step_ok_iff hop⟩

end Reachable

theorem reachable_new_set_newEx :
    Reachable Unit
      ⟨((∅ : ApplyRegistry ℕ).insert 7 ∅).insert 7 (setApply ∅ "hello" (some 5)), [⟨7⟩, ⟨8⟩]⟩
      [.registered (setApply ∅ "hello" (some 5)), .unregistered] := by
  refine .step (x := .newEx (.ok 8))
    (.step (x := .setNativeApply 0 "hello" (some 5) (.ok ()))
      (.step (x := .new (.ok 7)) .init ?_ rfl rfl) ?_ rfl rfl) ?_ rfl rfl
  · intro _ _ i t o ht
    simp [Harness.init] at ht
  · simp [Admissible]
  · rintro _ ⟨⟩ i t o ht - -
    rcases i with _ | i <;> simp [Harness.init] at ht
    subst ht
    decide

theorem registry_refines_new_set_newEx :
    Sim (⟨((∅ : ApplyRegistry ℕ).insert 7 ∅).insert 7 (setApply ∅ "hello" (some 5)),
        [⟨7⟩, ⟨8⟩]⟩ : Harness ℕ) [.registered (setApply ∅ "hello" (some 5)), .unregistered] ∧
      ∀ op : TesterOp ℕ Unit, Admissible ⟨((∅ : ApplyRegistry ℕ).insert 7 ∅).insert 7
          (setApply ∅ "hello" (some 5)), [⟨7⟩, ⟨8⟩]⟩
          [.registered (setApply ∅ "hello" (some 5)), .unregistered] op →
        ((∃ h', Harness.step ⟨((∅ : ApplyRegistry ℕ).insert 7 ∅).insert 7
            (setApply ∅ "hello" (some 5)), [⟨7⟩, ⟨8⟩]⟩ op = .ok h') ↔
          ∃ a', Own.step [.registered (setApply ∅ "hello" (some 5)), .unregistered] op = .ok a') :=
  Reachable.registry_refines reachable_new_set_newEx

end RscdkChain
