import RscdkChain.Structs.Fixed

namespace RscdkChain

/-- An operation of structs.rs on a program's signatures, which are named by position. -/
inductive SignatureOp
  | default
  | fromHex (s : String)
  | unpack (i : ℕ) (data : List (BitVec 8))
  | clone (i : ℕ)

namespace SignatureOp

variable (decodeHex : String → Except Abort (List (BitVec 8)))

def apply (sigs : List Signature) : SignatureOp → Except Abort (List Signature)
  | .default => pure (sigs ++ [(Inhabited.default : Signature)])
  | .fromHex s => do
    let sig ← Signature.fromHex decodeHex s
    pure (sigs ++ [sig])
  | .unpack i data =>
    match sigs[i]? with
    | some sig => do
      let (sig, _) ← Packer.unpack sig data
      pure (sigs.set i sig)
    | none => .error .panic
  | .clone i =>
    match sigs[i]? with
    | some sig => pure (sigs ++ [sig])
    | none => .error .panic

def run (ops : List SignatureOp) : Except Abort (List Signature) :=
  ops.foldlM (apply decodeHex) []

def TypeZero (sigs : List Signature) : Prop := ∀ s ∈ sigs, s.ty = 0

theorem fromHex_ty {s : String} {sig : Signature}
    (h : Signature.fromHex decodeHex s = .ok sig) : sig.ty = 0 := by
  simp only [Signature.fromHex, fromHexWith, bind_eq_ok, pure_eq_ok, Except.ok.injEq] at h
  obtain ⟨_, -, _, -, _, -, rfl⟩ := h
  rfl

theorem typeZero_append {sigs : List Signature} {sig : Signature} (h : TypeZero sigs)
    (hs : sig.ty = 0) : TypeZero (sigs ++ [sig]) := by
  intro s hs'
  rcases List.mem_append.mp hs' with hs' | hs'
  · exact h s hs'
  · rw [List.mem_singleton.mp hs']; exact hs

theorem apply_typeZero {sigs sigs' : List Signature} (op : SignatureOp) (h : TypeZero sigs)
    (happ : apply decodeHex sigs op = .ok sigs') : TypeZero sigs' := by
  cases op with
  | default =>
    cases happ
    exact typeZero_append h rfl
  | fromHex s =>
    simp only [apply, bind_eq_ok, pure_eq_ok, Except.ok.injEq] at happ
    obtain ⟨sig, hsig, rfl⟩ := happ
    exact typeZero_append h (fromHex_ty decodeHex hsig)
  | unpack i data =>
    simp only [apply] at happ
    split at happ
    · simp only [bind_eq_ok, pure_eq_ok, Except.ok.injEq] at happ
      obtain ⟨⟨sig, n⟩, hsig, rfl⟩ := happ
      intro s hs
      rcases List.mem_or_eq_of_mem_set hs with hs | rfl
      · exact h s hs
      · exact Signature.ty_of_unpack hsig
    · cases happ
  | clone i =>
    simp only [apply] at happ
    split at happ
    · next sig hi =>
      cases happ
      exact typeZero_append h (h sig (List.getElem?_mem hi))
    · cases happ

theorem foldlM_typeZero :
    ∀ (ops : List SignatureOp) {sigs sigs' : List Signature}, TypeZero sigs →
      ops.foldlM (apply decodeHex) sigs = .ok sigs' → TypeZero sigs'
  | [], _, _, h, hrun => by cases hrun; exact h
  | op :: ops, _, _, h, hrun => by
    simp only [List.foldlM_cons, bind_eq_ok] at hrun
    obtain ⟨sigs₁, h₁, hrun⟩ := hrun
    exact foldlM_typeZero ops (apply_typeZero decodeHex op h h₁) hrun

/-- Every signature a program can hold has type 0, so its packing starts with the byte 0 and
any receiver unpacks it, followed by any bytes, back to the same signature. -/
theorem reachable_signature_packs (ops : List SignatureOp) {sigs : List Signature}
    (h : run decodeHex ops = .ok sigs) {s : Signature} (hs : s ∈ sigs) :
    s.ty = 0 ∧ (Packer.bytes s).head? = some 0 ∧
      ∀ (r : Signature) t, Packer.unpack r (Packer.bytes s ++ t) = .ok (s, 66) := by
  have hty : s.ty = 0 :=
    foldlM_typeZero decodeHex ops (fun _ h ↦ absurd h (List.not_mem_nil _)) h s hs
  refine ⟨hty, by simp [Signature.packsAs.bytes, Signature.wire, hty], fun r t ↦ ?_⟩
  rw [Signature.overwrites r, Signature.packsAs.bytes, Signature.readsBack s t hty]
  simp [Signature.wire]

end SignatureOp

theorem reachable_signature_packs_unpack_clone :
    (default : Signature).ty = 0 ∧ (Packer.bytes (default : Signature)).head? = some 0 ∧
      ∀ (r : Signature) t,
        Packer.unpack r (Packer.bytes (default : Signature) ++ t) = .ok (default, 66) :=
  SignatureOp.reachable_signature_packs (fun _ ↦ .ok [])
    [.default, .unpack 0 (List.replicate 66 0), .clone 0]
    (show SignatureOp.run _ _ = .ok [default, default] from rfl) (List.mem_cons_self _ _)

end RscdkChain
