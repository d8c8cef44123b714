import Mathlib.Logic.Relation

/-!
# Lineages

A link relation that only grows by links from new nodes to known ones has no cycle.
-/

namespace Lineage

variable {α : Type}

/-- No node reaches itself. -/
def Acyclic (link : α → α → Prop) : Prop := ∀ a, ¬ Relation.TransGen link a a

/-- Both ends of every link are known. -/
def Within (known : α → Prop) (link : α → α → Prop) : Prop := ∀ a b, link a b → known a ∧ known b

/-- Every link of `link'` is one of `link`, or leads from a new node to a known one. -/
def Grows (known : α → Prop) (link link' : α → α → Prop) : Prop :=
  ∀ a b, link' a b → link a b ∨ (¬ known a ∧ known b)

variable {known : α → Prop} {link link' : α → α → Prop}

theorem acyclic_of_false (h : ∀ a b, ¬ link a b) : Acyclic link := by
  intro a hcycle
  obtain ⟨b, hlink, -⟩ := Relation.TransGen.head'_iff.mp hcycle
  exact h a b hlink

/-- A path from a known node has only old links. -/
theorem Grows.old_path (hgrows : Grows known link link') (hwithin : Within known link) {a b : α}
    (hknown : known a) (hpath : Relation.TransGen link' a b) :
    Relation.TransGen link a b ∧ known b := by
  induction hpath with
  | @single b hlink =>
    rcases hgrows a b hlink with hold | ⟨hnew, -⟩
    · exact ⟨.single hold, (hwithin a b hold).2⟩
    · exact absurd hknown hnew
  | @tail b c hpath hlink ih =>
    obtain ⟨hold, hb⟩ := ih
    rcases hgrows b c hlink with hlast | ⟨hnew, -⟩
    · exact ⟨hold.tail hlast, (hwithin b c hlast).2⟩
    · exact absurd hb hnew

/-- Growth keeps a lineage free of cycles. -/
theorem Acyclic.grow (hacyclic : Acyclic link) (hwithin : Within known link)
    (hgrows : Grows known link link') : Acyclic link' := by
  intro a hcycle
  -- the last link of the cycle leads to a known node
  obtain ⟨b, -, hlast⟩ := Relation.TransGen.tail'_iff.mp hcycle
  have hknown : known a := (hgrows b a hlast).elim (fun h => (hwithin b a h).2) (·.2)
  exact hacyclic a (hgrows.old_path hwithin hknown hcycle).1

end Lineage
