import TokenWeasel.Proxy.Upstream

/-!
# Configured headers (`twl-config/src/config.rs`)

A backend's headers come in the order of a hash map, and are resolved to the same list in any.
-/

namespace TokenWeasel.Proxy

open Server

/-- The name in lower case. -/
def foldHeader (header : String × String) : String × String :=
  (String.ofList (Text.toAsciiLowercase header.1.toList), header.2)

def IsValidHeader (header : String × String) : Prop :=
  (headerName header.1).isSome = true ∧ headerValueFromBytes header.2 = true

instance (header : String × String) : Decidable (IsValidHeader header) :=
  inferInstanceAs (Decidable (_ ∧ _))

theorem resolveHeader_eq_ok {header resolved : String × String} :
    resolveHeader header = .ok resolved ↔ IsValidHeader header ∧ resolved = foldHeader header := by
  unfold resolveHeader IsValidHeader
  cases hname : headerName header.1 with
  | none => simp
  | some name =>
      have hfold : name = (foldHeader header).1 := (headerName_eq_some.mp hname).2.2.2.symm
      dsimp only
      split
      · rename_i hvalue
        rw [Except.ok.injEq, eq_comm]
        refine ⟨fun h ↦ ⟨⟨rfl, hvalue⟩, ?_⟩, fun h ↦ ?_⟩
        · rw [h, hfold]
          rfl
        · rw [h.2, hfold]
          rfl
      · rename_i hvalue
        exact iff_of_false (by simp) fun h ↦ hvalue h.1.2

theorem resolveHeaders_eq_ok {headers resolved : List (String × String)} :
    resolveHeaders headers = .ok resolved ↔
      (∀ header ∈ headers, IsValidHeader header) ∧ resolved = headers.map foldHeader := by
  induction headers generalizing resolved with
  | nil => simp [resolveHeaders, eq_comm]
  | cons header rest ih =>
      rw [List.forall_mem_cons, List.map_cons]
      unfold resolveHeaders
      cases hfirst : resolveHeader header with
      | error e =>
          apply iff_of_false (by simp)
          rintro ⟨⟨hvalid, -⟩, -⟩
          rw [resolveHeader_eq_ok.mpr ⟨hvalid, rfl⟩] at hfirst
          cases hfirst
      | ok first =>
          rcases resolveHeader_eq_ok.mp hfirst with ⟨hvalid, rfl⟩
          dsimp only
          cases hrest : resolveHeaders rest with
          | error e =>
              apply iff_of_false (by simp)
              rintro ⟨⟨-, hothers⟩, -⟩
              rw [ih.mpr ⟨hothers, rfl⟩] at hrest
              cases hrest
          | ok others =>
              rcases ih.mp hrest with ⟨hothers, rfl⟩
              rw [Except.ok.injEq, eq_comm]
              exact ⟨fun h ↦ ⟨⟨hvalid, hothers⟩, h⟩, fun h ↦ h.2⟩

/-! ## The order of the result -/

theorem headerOrder_antisymm {a b : String × String} (hab : headerOrder a b = true)
    (hba : headerOrder b a = true) : a = b := by
  rw [headerOrder_iff] at hab hba
  rcases hab with hlt | ⟨hname, hvalue⟩
  · rcases hba with hgt | ⟨hname, -⟩
    · exact absurd hgt (lt_asymm hlt)
    · exact absurd hname hlt.ne'
  · rcases hba with hgt | ⟨-, hvalue'⟩
    · exact absurd hname hgt.ne'
    · exact Prod.ext hname (le_antisymm hvalue hvalue')

/-- One list of headers has one order. -/
theorem mergeSort_eq_of_perm {headers headers' : List (String × String)}
    (h : headers.Perm headers') : headers.mergeSort headerOrder = headers'.mergeSort headerOrder := by
  have hperm : (headers.mergeSort headerOrder).Perm (headers'.mergeSort headerOrder) :=
    (List.mergeSort_perm _ _).trans (h.trans (List.mergeSort_perm _ _).symm)
  have hsorted := List.pairwise_mergeSort headerOrder_trans headerOrder_total headers
  have hsorted' := List.pairwise_mergeSort headerOrder_trans headerOrder_total headers'
  exact List.Perm.eq_of_pairwise (fun _ _ _ _ hab hba ↦ headerOrder_antisymm hab hba) hsorted
    hsorted' hperm

/-- In a sorted list a name that comes twice comes twice in a row. -/
theorem find_duplicate_eq_none {headers : List (String × String)}
    (hsorted : headers.Pairwise fun left right ↦ headerOrder left right = true) :
    (headers.zip headers.tail).find? (fun pair ↦ pair.1.1 = pair.2.1) = none ↔
      (headers.map Prod.fst).Nodup := by
  rw [List.find?_eq_none]
  constructor
  · intro h
    exact names_nodup hsorted fun pair hpair ↦ by simpa using h pair hpair
  · intro hnodup pair hpair
    rw [decide_eq_true_eq]
    clear hsorted
    induction headers with
    | nil => exact absurd hpair List.not_mem_nil
    | cons head rest ih =>
        cases rest with
        | nil => exact absurd hpair List.not_mem_nil
        | cons second rest =>
            rw [List.map_cons, List.nodup_cons] at hnodup
            cases List.mem_cons.mp hpair with
            | inl heq =>
                rw [heq]
                exact fun hsame ↦ hnodup.1 (hsame ▸ List.mem_cons_self)
            | inr hmore => exact ih hnodup.2 hmore

/-- Headers that are all valid are resolved to one result, and one error, whatever their order. -/
theorem resolveBackendHeaders_perm {headers headers' : List (String × String)}
    (h : headers.Perm headers') (hvalid : ∀ header ∈ headers, IsValidHeader header) :
    resolveBackendHeaders headers = resolveBackendHeaders headers' := by
  have hvalid' : ∀ header ∈ headers', IsValidHeader header := fun header hheader ↦
    hvalid header (h.mem_iff.mpr hheader)
  unfold resolveBackendHeaders
  rw [resolveHeaders_eq_ok.mpr ⟨hvalid, rfl⟩, resolveHeaders_eq_ok.mpr ⟨hvalid', rfl⟩]
  dsimp only
  rw [mergeSort_eq_of_perm (h.map foldHeader)]

theorem resolveBackendHeaders_eq_ok {headers resolved : List (String × String)} :
    resolveBackendHeaders headers = .ok resolved ↔
      (∀ header ∈ headers, IsValidHeader header) ∧
        ((headers.map foldHeader).map Prod.fst).Nodup ∧
        resolved = (headers.map foldHeader).mergeSort headerOrder := by
  unfold resolveBackendHeaders
  cases hparsed : resolveHeaders headers with
  | error e =>
      apply iff_of_false (by simp)
      rintro ⟨hvalid, -⟩
      rw [resolveHeaders_eq_ok.mpr ⟨hvalid, rfl⟩] at hparsed
      cases hparsed
  | ok parsed =>
      rcases resolveHeaders_eq_ok.mp hparsed with ⟨hvalid, rfl⟩
      have hsorted := List.pairwise_mergeSort headerOrder_trans headerOrder_total
        (headers.map foldHeader)
      have hnames : (((headers.map foldHeader).mergeSort headerOrder).map Prod.fst).Nodup ↔
          ((headers.map foldHeader).map Prod.fst).Nodup :=
        ((List.mergeSort_perm _ _).map Prod.fst).nodup_iff
      have hunique := (find_duplicate_eq_none hsorted).trans hnames
      dsimp only
      split
      · rename_i pair hfound
        refine iff_of_false (by simp) fun h ↦ ?_
        rw [hunique.mpr h.2.1] at hfound
        cases hfound
      · rename_i hnone
        rw [Except.ok.injEq, eq_comm]
        exact ⟨fun h ↦ ⟨hvalid, hunique.mp hnone, h⟩, fun h ↦ h.2.2⟩

/-- Names are different in lower case when they are different but for the case. -/
theorem nodup_names_iff {headers : List (String × String)} :
    ((headers.map foldHeader).map Prod.fst).Nodup ↔ headers.Pairwise fun a b ↦
      Text.eqIgnoreAsciiCase a.1.toList b.1.toList = false := by
  rw [List.map_map, List.Nodup, List.pairwise_map]
  apply List.Pairwise.iff
  intro a b
  rw [Text.eqIgnoreAsciiCase, decide_eq_false_iff_not]
  exact not_congr String.ofList_inj

/-- The headers of a map are resolved to the same list in every order of it; they are resolved
exactly when each is valid and no two names are equal but for their case; and then the list has each
header once, under its name in lower case, in the strict order of the names. -/
theorem resolveBackendHeaders_order_free :
    (∀ headers headers' : List (String × String), headers.Perm headers' →
      ∀ resolved, resolveBackendHeaders headers = .ok resolved ↔
        resolveBackendHeaders headers' = .ok resolved) ∧
    (∀ headers : List (String × String),
      (∃ resolved, resolveBackendHeaders headers = .ok resolved) ↔
        (∀ header ∈ headers, IsValidHeader header) ∧
          headers.Pairwise fun a b ↦ Text.eqIgnoreAsciiCase a.1.toList b.1.toList = false) ∧
    ∀ headers resolved : List (String × String), resolveBackendHeaders headers = .ok resolved →
      resolved.Pairwise (fun a b ↦ a.1 < b.1) ∧ resolved.Perm (headers.map foldHeader) := by
  refine ⟨fun headers headers' hperm resolved ↦ ?_, fun headers ↦ ?_,
    fun headers resolved h ↦ ?_⟩
  · constructor
    · intro h
      rw [← resolveBackendHeaders_perm hperm (resolveBackendHeaders_eq_ok.mp h).1]
      exact h
    · intro h
      rw [← resolveBackendHeaders_perm hperm.symm (resolveBackendHeaders_eq_ok.mp h).1]
      exact h
  · rw [← nodup_names_iff]
    constructor
    · rintro ⟨resolved, h⟩
      rcases resolveBackendHeaders_eq_ok.mp h with ⟨hvalid, hnodup, -⟩
      exact ⟨hvalid, hnodup⟩
    · rintro ⟨hvalid, hnodup⟩
      exact ⟨_, resolveBackendHeaders_eq_ok.mpr ⟨hvalid, hnodup, rfl⟩⟩
  · rcases resolveBackendHeaders_eq_ok.mp h with ⟨-, hnodup, rfl⟩
    have hperm := List.mergeSort_perm (headers.map foldHeader) headerOrder
    have hsorted := List.pairwise_mergeSort headerOrder_trans headerOrder_total
      (headers.map foldHeader)
    have hdistinct := List.pairwise_map.mp ((hperm.map Prod.fst).nodup_iff.mpr hnodup)
    refine ⟨?_, hperm⟩
    apply (hsorted.and hdistinct).imp
    rintro a b ⟨horder, hne⟩
    exact (headerOrder_iff.mp horder).resolve_right fun heq ↦ hne heq.1

end TokenWeasel.Proxy
