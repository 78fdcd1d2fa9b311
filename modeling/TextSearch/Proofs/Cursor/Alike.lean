import TextSearch.Proofs.Cursor.Documents
import TextSearch.Proofs.Cursor.Proximity
import TextSearch.Proofs.Cursor.SpanUnion

/-!
# What joined trails show

Trails are alike if they visit the same documents, visit by visit, and show related
things there. Choices, unions and meetings of trails that are alike are alike again, if
the relation fits; for unions and proximities of spans this is `SpanUnion.alike_merged`
and `SpanProximity.alike_matched`.
-/

namespace TextSearch

namespace Trail

variable {β γ δ ε : Type} {P : β → γ → Prop} {Q : δ → ε → Prop}

/-- Trails that make the same visits and show related things there. -/
def Alike (P : β → γ → Prop) : Trail β → Trail γ → Prop :=
  List.Forall₂ fun v w => v.doc = w.doc ∧ P v.shown w.shown

namespace Alike

variable {t : Trail β} {u : Trail γ}

theorem refl {P : β → β → Prop} (hP : ∀ b, P b b) (t : Trail β) : Alike P t t :=
  List.forall₂_same.2 fun v _ => ⟨rfl, hP v.shown⟩

theorem mono {P' : β → γ → Prop} (h : Alike P t u) (hP : ∀ b c, P b c → P' b c) :
    Alike P' t u :=
  h.imp fun _ _ hvw => ⟨hvw.1, hP _ _ hvw.2⟩

theorem sameDocs (h : Alike P t u) : SameDocs t u := by
  induction h with
  | nil => rfl
  | cons hvw _ ih =>
    rw [SameDocs] at ih
    rw [SameDocs, docs_cons, docs_cons, hvw.1, ih]

theorem showing (h : Alike P t u) {f : β → δ} {f' : γ → ε} (hf : ∀ b c, P b c → Q (f b) (f' c)) :
    Alike Q (t.showing f) (u.showing f') := by
  induction h with
  | nil => exact .nil
  | cons hvw _ ih => exact .cons ⟨hvw.1, hf _ _ hvw.2⟩ ih

/-- Choices that come to nothing in the same places leave alike trails alike. -/
theorem choosing {Q : List δ → List ε → Prop} (h : Alike P t u) {f : β → List δ}
    {f' : γ → List ε} (hf : ∀ b c, P b c → Q (f b) (f' c))
    (hnil : ∀ ds es, Q ds es → (ds = [] ↔ es = [])) :
    Alike Q (t.choosing f) (u.choosing f') := by
  induction h with
  | nil => exact .nil
  | @cons v w t u hvw _ ih =>
    have hshown := hf _ _ hvw.2
    rw [choosing_cons, choosing_cons]
    by_cases hv : f v.shown = []
    · rw [if_pos hv, if_pos ((hnil _ _ hshown).1 hv)]
      exact ih
    · rw [if_neg hv, if_neg fun hw => hv ((hnil _ _ hshown).2 hw)]
      exact .cons ⟨hvw.1, hshown⟩ ih

theorem at? (h : Alike P t u) (d : Nat) : Option.Rel P (t.at? d) (u.at? d) := by
  induction h with
  | nil => exact .none
  | cons hvw _ ih =>
    rw [at?_cons, at?_cons, ← hvw.1]
    split
    · exact .some hvw.2
    · exact ih

theorem leaving (h : Alike P t u) (d : Nat) : Alike P (t.leaving d) (u.leaving d) := by
  rw [Trail.leaving, Trail.leaving, h.sameDocs.begins d]
  split
  · cases h with
    | nil => exact .nil
    | cons _ hrest => exact hrest
  · exact h

end Alike

/-! ### Joined trails -/

theorem rel_allAt? {ts : List (Trail β)} {us : List (Trail γ)}
    (h : List.Forall₂ (Alike P) ts us) (d : Nat) :
    Option.Rel (List.Forall₂ P) (allAt? d ts) (allAt? d us) := by
  induction h with
  | nil => exact .some .nil
  | @cons t u ts us htu _ ih =>
    have hfirst := htu.at? d
    rw [allAt?, allAt?]
    generalize t.at? d = b at hfirst
    generalize u.at? d = c at hfirst
    generalize allAt? d ts = bs at ih
    generalize allAt? d us = cs at ih
    cases hfirst with
    | none => exact .none
    | some hbc =>
      cases ih with
      | none => exact .none
      | some hrest => exact .some (.cons hbc hrest)

theorem alike_meet {ts : List (Trail β)} {us : List (Trail γ)}
    (h : List.Forall₂ (Alike P) ts us) : Alike (List.Forall₂ P) (meet ts) (meet us) := by
  cases h with
  | nil => exact .nil
  | @cons t u ts us htu hothers =>
    induction htu with
    | nil => exact .nil
    | @cons v w t u hvw _ ih =>
      have hall := rel_allAt? hothers v.doc
      rw [meet_cons_cons, meet_cons_cons, ← hvw.1]
      generalize allAt? v.doc ts = bs at hall
      generalize allAt? v.doc us = cs at hall
      cases hall with
      | none => exact ih
      | some hrest => exact .cons ⟨rfl, .cons hvw.2 hrest⟩ ih

theorem forall₂_heads {ts : List (Trail β)} {us : List (Trail γ)}
    (h : List.Forall₂ (Alike P) ts us) (d : Nat) :
    List.Forall₂ P (heads d ts) (heads d us) := by
  induction h with
  | nil => exact .nil
  | cons htu _ ih =>
    cases htu with
    | nil => exact ih
    | cons hvw _ =>
      rw [heads_cons_cons, heads_cons_cons, hvw.1]
      split
      · exact .cons hvw.2 ih
      · exact ih

theorem alike_union {ts : List (Trail β)} {us : List (Trail γ)}
    (h : List.Forall₂ (Alike P) ts us) : Alike (List.Forall₂ P) (union ts) (union us) := by
  induction ts using union_induction generalizing us with
  | nil ts hnone =>
    have hleast := leastDoc?_congr (h.imp fun _ _ htu => htu.sameDocs)
    rw [union_of_none hnone, union_of_none (hleast.symm.trans hnone)]
    exact .nil
  | step ts d hsome ih =>
    have hleast := leastDoc?_congr (h.imp fun _ _ htu => htu.sameDocs)
    have hleaving : List.Forall₂ (Alike P) (ts.map (leaving d)) (us.map (leaving d)) := by
      rw [List.forall₂_map_left_iff, List.forall₂_map_right_iff]
      exact h.imp fun _ _ htu => htu.leaving d
    rw [union_of_some hsome, union_of_some (hleast.symm.trans hsome)]
    exact .cons ⟨rfl, forall₂_heads h d⟩ (ih hleaving)

end Trail

/-! ### Trails of spans -/

variable {P : List Span → List Span → Prop} {ts us : List (Trail (List Span))}

theorem SpanUnion.alike_merged
    (hP : ∀ sss uss, List.Forall₂ P sss uss → P (Span.sorted sss.flatten) (Span.sorted uss.flatten))
    (h : List.Forall₂ (Trail.Alike P) ts us) : Trail.Alike P (merged ts) (merged us) :=
  (Trail.alike_union h).showing hP

theorem SpanProximity.alike_matched {slop : UInt32} {inOrder : Bool}
    (hP : ∀ sss uss, List.Forall₂ P sss uss → P (Span.near slop inOrder sss)
      (Span.near slop inOrder uss))
    (hnil : ∀ ss us, P ss us → (ss = [] ↔ us = []))
    (h : List.Forall₂ (Trail.Alike P) ts us) :
    Trail.Alike P (matched slop inOrder ts) (matched slop inOrder us) :=
  (Trail.alike_meet h).choosing hP hnil

end TextSearch
