import FrappeController.OperationAuthoring

/-!
# The approval rule of an operation

`select_approval_rule` sorts the rules that match by how specific they are and refuses a tie at
the top. The sort is by a total order of ranks, so the order of the rules plays no part, and
two rules of one kind and length match one operation only if their patterns are the same.
-/

namespace FrappeController
namespace OperationAuthoring

/-! ## Ranks -/

theorem rankLe_total (a b : Bool × Bool × ℕ) : rankLe a b = true ∨ rankLe b a = true := by
  obtain ⟨a₁, a₂, a₃⟩ := a
  obtain ⟨b₁, b₂, b₃⟩ := b
  have hlength := Nat.le_total a₃ b₃
  cases a₁ <;> cases b₁ <;> cases a₂ <;> cases b₂ <;> simp [rankLe, hlength]

theorem rankLe_trans {a b c : Bool × Bool × ℕ} (hab : rankLe a b = true)
    (hbc : rankLe b c = true) : rankLe a c = true := by
  obtain ⟨a₁, a₂, a₃⟩ := a
  obtain ⟨b₁, b₂, b₃⟩ := b
  obtain ⟨c₁, c₂, c₃⟩ := c
  cases a₁ <;> cases b₁ <;> cases c₁ <;> cases a₂ <;> cases b₂ <;> cases c₂ <;>
    simp [rankLe] at hab hbc ⊢ <;> omega

theorem rankLe_antisymm {a b : Bool × Bool × ℕ} (hab : rankLe a b = true)
    (hba : rankLe b a = true) : a = b := by
  obtain ⟨a₁, a₂, a₃⟩ := a
  obtain ⟨b₁, b₂, b₃⟩ := b
  cases a₁ <;> cases b₁ <;> cases a₂ <;> cases b₂ <;> simp [rankLe] at hab hba ⊢ <;> omega

variable {rules rules' : List ApprovalRule} {environment operation : String}

/-- `a` is strictly more specific than `b`. -/
def MoreSpecific (environment : String) (a b : ApprovalRule) : Prop :=
  rankLe (a.rank environment) (b.rank environment) = false

/-- No matching rule is more specific than this one. -/
def MostSpecific (environment : String) (matching : List ApprovalRule) (rule : ApprovalRule) :
    Prop :=
  ∀ other ∈ matching, rankLe (other.rank environment) (rule.rank environment) = true

/-- Two rules of a list share the most specific rank. -/
def Tied (environment : String) (matching : List ApprovalRule) : Prop :=
  ∃ a b others, matching.Perm (a :: b :: others) ∧ a.rank environment = b.rank environment ∧
    MostSpecific environment matching a

theorem moreSpecific_iff {a b : ApprovalRule} :
    MoreSpecific environment a b ↔ rankLe (b.rank environment) (a.rank environment) = true ∧
      a.rank environment ≠ b.rank environment := by
  constructor
  · intro h
    have hle := (rankLe_total (b.rank environment) (a.rank environment)).resolve_right
      (by rw [show rankLe (a.rank environment) (b.rank environment) = false from h]; decide)
    refine ⟨hle, fun heq => ?_⟩
    rw [MoreSpecific, heq] at h
    rw [heq, h] at hle
    cases hle
  · intro ⟨hle, hne⟩
    by_contra hnot
    exact hne (rankLe_antisymm (Bool.not_eq_false _ ▸ hnot) hle)

/-! ## Selection -/

/-- The matching rules, the most specific first. -/
def candidates (rules : List ApprovalRule) (environment operation : String) : List ApprovalRule :=
  (rules.filter (·.isFor environment operation)).insertionSort fun a b =>
    rankLe (b.rank environment) (a.rank environment)

theorem candidates_perm (rules : List ApprovalRule) (environment operation : String) :
    (candidates rules environment operation).Perm
      (rules.filter (·.isFor environment operation)) :=
  List.perm_insertionSort _ _

/-- The first candidate is one of the most specific. -/
theorem mostSpecific_head {best : ApprovalRule} {rest : List ApprovalRule}
    (h : candidates rules environment operation = best :: rest) :
    MostSpecific environment (best :: rest) best := by
  have hsorted : (best :: rest).Pairwise fun a b =>
      rankLe (b.rank environment) (a.rank environment) = true := by
    rw [← h]
    have : Std.Total fun a b : ApprovalRule =>
        rankLe (b.rank environment) (a.rank environment) = true :=
      ⟨fun a b => rankLe_total _ _⟩
    have : IsTrans ApprovalRule fun a b =>
        rankLe (b.rank environment) (a.rank environment) = true :=
      ⟨fun a b c hab hbc => rankLe_trans hbc hab⟩
    exact List.pairwise_insertionSort _ _
  intro other hother
  rcases List.mem_cons.mp hother with rfl | hrest
  · exact (rankLe_total _ _).elim id id
  · exact List.rel_of_pairwise_cons hsorted hrest

theorem selectApprovalRule_eq (rules : List ApprovalRule) (environment operation : String) :
    selectApprovalRule rules environment operation =
      match candidates rules environment operation with
      | [] => .ok none
      | best :: rest =>
        if rest.any (fun rule => rule.rank environment == best.rank environment) then
          .error (refused "approval policy selection is ambiguous")
        else .ok (some best) := rfl

/-- The three outcomes, by the candidates. -/
theorem selectApprovalRule_cases (rules : List ApprovalRule) (environment operation : String) :
    (candidates rules environment operation = [] ∧
      selectApprovalRule rules environment operation = .ok none) ∨
    ∃ best rest, candidates rules environment operation = best :: rest ∧
      ((Tied environment (best :: rest) ∧ selectApprovalRule rules environment operation =
          .error (refused "approval policy selection is ambiguous")) ∨
        ((∀ other ∈ rest, MoreSpecific environment best other) ∧
          selectApprovalRule rules environment operation = .ok (some best))) := by
  have hselect := selectApprovalRule_eq rules environment operation
  cases hcandidates : candidates rules environment operation with
  | nil =>
    rw [hselect, hcandidates]
    exact .inl ⟨rfl, rfl⟩
  | cons best rest =>
    have hmost := mostSpecific_head hcandidates
    rw [hselect, hcandidates]
    refine .inr ⟨best, rest, rfl, ?_⟩
    by_cases htie : rest.any (fun rule => rule.rank environment == best.rank environment) = true
    · refine .inl ⟨?_, if_pos htie⟩
      obtain ⟨other, hother, hrank⟩ := List.any_eq_true.mp htie
      exact ⟨best, other, rest.erase other, (List.perm_cons_erase hother).cons best,
        (beq_iff_eq.mp hrank).symm, hmost⟩
    · refine .inr ⟨fun other hother => ?_, if_neg htie⟩
      refine moreSpecific_iff.mpr ⟨hmost other (List.mem_cons_of_mem _ hother), fun hrank => ?_⟩
      exact htie (List.any_eq_true.mpr ⟨other, hother, beq_iff_eq.mpr hrank.symm⟩)

/-- The rule that is more specific than all other matching rules is the only such rule, and there
is no tie. -/
theorem not_tied_of_moreSpecific {matching others : List ApprovalRule} {rule : ApprovalRule}
    (hperm : matching.Perm (rule :: others))
    (hrule : ∀ other ∈ others, MoreSpecific environment rule other) :
    ¬ Tied environment matching := by
  rintro ⟨a, b, rest, hperm', hrank, hmost⟩
  have hrest : (rule :: others).Perm (a :: b :: rest) := hperm.symm.trans hperm'
  have htop : rankLe (rule.rank environment) (a.rank environment) = true :=
    hmost rule (hperm.mem_iff.mpr (List.mem_cons_self ..))
  -- one of the two that tie is not the rule itself
  have hother : ∃ other ∈ others, other.rank environment = a.rank environment := by
    have ha : a ∈ rule :: others := hrest.mem_iff.mpr (List.mem_cons_self ..)
    rcases List.mem_cons.mp ha with rfl | ha
    · have hcons : others.Perm (b :: rest) := (List.perm_cons a).mp hrest
      exact ⟨b, hcons.mem_iff.mpr (List.mem_cons_self ..), hrank.symm⟩
    · exact ⟨a, ha, rfl⟩
  obtain ⟨other, hother, hsame⟩ := hother
  have hstrict : rankLe (rule.rank environment) (other.rank environment) = false :=
    hrule other hother
  rw [hsame, htop] at hstrict
  cases hstrict

theorem eq_of_moreSpecific {matching others others' : List ApprovalRule} {a b : ApprovalRule}
    (ha : matching.Perm (a :: others)) (hb : matching.Perm (b :: others'))
    (hmost : ∀ other ∈ others, MoreSpecific environment a other)
    (hmost' : ∀ other ∈ others', MoreSpecific environment b other) : a = b := by
  by_contra hne
  have hab : a ∈ b :: others' := hb.mem_iff.mp (ha.mem_iff.mpr (List.mem_cons_self ..))
  have hba : b ∈ a :: others := ha.mem_iff.mp (hb.mem_iff.mpr (List.mem_cons_self ..))
  have hless := hmost b ((List.mem_cons.mp hba).resolve_left (Ne.symm hne))
  have hless' := (moreSpecific_iff.mp (hmost' a ((List.mem_cons.mp hab).resolve_left hne))).1
  rw [show rankLe (a.rank environment) (b.rank environment) = false from hless] at hless'
  cases hless'

/-! ## Patterns -/

theorem wildcard?_eq_some {pattern : String} {stem : List Char}
    (h : wildcard? pattern = some stem) : pattern.toList = stem ++ ['.', '*'] := by
  unfold wildcard? at h
  split at h
  · rename_i hends
    cases h
    have hsuffix : ".*".toList <:+ pattern.toList := by simpa [endsWith] using hends
    obtain ⟨front, hfront⟩ := hsuffix
    have hlength : front.length = pattern.length - 2 := by
      have h := congrArg List.length hfront
      simp only [List.length_append, String.length_toList] at h
      have htwo : ".*".length = 2 := rfl
      omega
    rw [← hfront, ← hlength, List.take_left']
    · rfl
    · rfl
  · cases h

/-- Rules of one kind and length that match one operation have the same pattern. -/
theorem pattern_eq_of_isFor {a b : ApprovalRule} (ha : a.isFor environment operation = true)
    (hb : b.isFor environment operation = true)
    (hkind : (wildcard? a.operationPattern).isNone = (wildcard? b.operationPattern).isNone)
    (hlength : a.operationPattern.length = b.operationPattern.length) :
    a.operationPattern = b.operationPattern := by
  simp only [ApprovalRule.isFor, Bool.and_eq_true] at ha hb
  cases hwa : wildcard? a.operationPattern with
  | none =>
    rw [hwa] at ha hkind
    have hwb : wildcard? b.operationPattern = none := by simpa using hkind.symm
    rw [hwb] at hb
    exact (beq_iff_eq.mp ha.2).symm.trans (beq_iff_eq.mp hb.2)
  | some stem =>
    rw [hwa] at ha hkind
    obtain ⟨stem', hwb⟩ := Option.ne_none_iff_exists'.mp
      (show wildcard? b.operationPattern ≠ none from fun h => by simp [h] at hkind)
    rw [hwb] at hb
    have hpa := wildcard?_eq_some hwa
    have hpb := wildcard?_eq_some hwb
    have hstems : stem.length = stem'.length := by
      have h := congrArg List.length hpa
      have h' := congrArg List.length hpb
      simp only [String.length_toList, List.length_append] at h h'
      omega
    -- both stems are prefixes of the operation
    have hinitial : stem ++ ['.'] <+: operation.toList := List.isPrefixOf_iff_prefix.mp ha.2
    have hinitial' : stem' ++ ['.'] <+: operation.toList := List.isPrefixOf_iff_prefix.mp hb.2
    have hstem : stem ++ ['.'] = stem' ++ ['.'] :=
      (List.prefix_of_prefix_length_le hinitial hinitial' (by simp [hstems])).eq_of_length
        (by simp [hstems])
    have hsame : stem = stem' := List.append_cancel_right hstem
    apply String.toList_inj.mp
    rw [hpa, hpb, hsame]

/-! Which outcome it is depends on the matching rules, not on their order. -/

theorem selectApprovalRule_eq_none_iff (rules : List ApprovalRule)
    (environment operation : String) : selectApprovalRule rules environment operation = .ok none ↔
      ∀ rule ∈ rules, rule.isFor environment operation = false := by
  have hnone : candidates rules environment operation = [] ↔
      ∀ rule ∈ rules, rule.isFor environment operation = false := by
    rw [← List.length_eq_zero_iff, (candidates_perm rules environment operation).length_eq,
      List.length_eq_zero_iff, List.filter_eq_nil_iff]
    simp
  rw [← hnone]
  rcases selectApprovalRule_cases rules environment operation with
    ⟨hnil, hselect⟩ | ⟨best, rest, hcons, ⟨-, hselect⟩ | ⟨-, hselect⟩⟩
  · simp [hnil, hselect]
  · simp [hcons, hselect]
  · simp [hcons, hselect]

theorem Tied.perm {matching matching' : List ApprovalRule} (h : Tied environment matching)
    (hperm : matching.Perm matching') : Tied environment matching' := by
  obtain ⟨a, b, others, htwo, hrank, hmost⟩ := h
  exact ⟨a, b, others, hperm.symm.trans htwo, hrank,
    fun other hother => hmost other (hperm.mem_iff.mpr hother)⟩

theorem Tied.ne_nil {matching : List ApprovalRule} (h : Tied environment matching) :
    matching ≠ [] := by
  obtain ⟨a, b, others, hperm, -, -⟩ := h
  rintro rfl
  exact List.cons_ne_nil _ _ (List.nil_perm.mp hperm)

theorem selectApprovalRule_eq_error_iff (rules : List ApprovalRule)
    (environment operation : String) (e : Exc) :
    selectApprovalRule rules environment operation = .error e ↔
      e = refused "approval policy selection is ambiguous" ∧
        Tied environment (rules.filter (·.isFor environment operation)) := by
  have hperm := candidates_perm rules environment operation
  rcases selectApprovalRule_cases rules environment operation with
    ⟨hnil, hselect⟩ | ⟨best, rest, hcons, ⟨htied, hselect⟩ | ⟨hmost, hselect⟩⟩
  · rw [hnil] at hperm
    simp only [hselect, reduceCtorEq, false_iff, not_and]
    exact fun _ htied => htied.ne_nil (List.nil_perm.mp hperm)
  · rw [hcons] at hperm
    simp only [hselect, Except.error.injEq]
    exact ⟨fun he => ⟨he.symm, htied.perm hperm⟩, fun h => h.1.symm⟩
  · rw [hcons] at hperm
    simp only [hselect, reduceCtorEq, false_iff, not_and]
    exact fun _ => not_tied_of_moreSpecific hperm.symm hmost

theorem selectApprovalRule_eq_some_iff (rules : List ApprovalRule)
    (environment operation : String) (rule : ApprovalRule) :
    selectApprovalRule rules environment operation = .ok (some rule) ↔
      ∃ others, (rules.filter (·.isFor environment operation)).Perm (rule :: others) ∧
        ∀ other ∈ others, MoreSpecific environment rule other := by
  have hperm := candidates_perm rules environment operation
  rcases selectApprovalRule_cases rules environment operation with
    ⟨hnil, hselect⟩ | ⟨best, rest, hcons, ⟨htied, hselect⟩ | ⟨hmost, hselect⟩⟩
  · rw [hnil] at hperm
    simp only [hselect, Except.ok.injEq, reduceCtorEq, false_iff, not_exists, not_and]
    intro others hothers
    exact absurd (List.nil_perm.mp (hperm.trans hothers)) (List.cons_ne_nil _ _)
  · rw [hcons] at hperm
    simp only [hselect, reduceCtorEq, false_iff, not_exists, not_and]
    exact fun others hothers hmost => not_tied_of_moreSpecific hothers hmost (htied.perm hperm)
  · rw [hcons] at hperm
    simp only [hselect, Except.ok.injEq, Option.some.injEq]
    constructor
    · rintro rfl
      exact ⟨rest, hperm.symm, hmost⟩
    · rintro ⟨others, hothers, hmost'⟩
      exact eq_of_moreSpecific hperm.symm hothers hmost hmost'

/-- The selected rule depends on the set of rules only: nothing where no rule matches, a refusal
where the most specific rank is shared, and the most specific rule otherwise. -/
theorem selectApprovalRule_spec (rules : List ApprovalRule) (environment operation : String) :
    (∀ rules', rules'.Perm rules → selectApprovalRule rules' environment operation =
      selectApprovalRule rules environment operation) ∧
    (selectApprovalRule rules environment operation = .ok none ↔
      ∀ rule ∈ rules, rule.isFor environment operation = false) ∧
    (∀ e, selectApprovalRule rules environment operation = .error e ↔
      e = refused "approval policy selection is ambiguous" ∧
        Tied environment (rules.filter (·.isFor environment operation))) ∧
    (∀ rule, selectApprovalRule rules environment operation = .ok (some rule) ↔
      ∃ others, (rules.filter (·.isFor environment operation)).Perm (rule :: others) ∧
        ∀ other ∈ others, MoreSpecific environment rule other) ∧
    (∀ a ∈ rules, ∀ b ∈ rules, a.isFor environment operation = true →
      b.isFor environment operation = true → a.rank environment = b.rank environment →
      a.operationPattern = b.operationPattern) := by
  refine ⟨fun rules' hrules => ?_, selectApprovalRule_eq_none_iff rules environment operation,
    selectApprovalRule_eq_error_iff rules environment operation,
    selectApprovalRule_eq_some_iff rules environment operation, ?_⟩
  · have hmatching := hrules.filter (·.isFor environment operation)
    cases hselect : selectApprovalRule rules environment operation with
    | error e =>
      obtain ⟨he, htied⟩ := (selectApprovalRule_eq_error_iff rules environment operation e).mp hselect
      exact (selectApprovalRule_eq_error_iff rules' environment operation e).mpr
        ⟨he, htied.perm hmatching.symm⟩
    | ok selected =>
      cases selected with
      | none =>
        have hnone := (selectApprovalRule_eq_none_iff rules environment operation).mp hselect
        exact (selectApprovalRule_eq_none_iff rules' environment operation).mpr
          fun rule hrule => hnone rule (hrules.mem_iff.mp hrule)
      | some rule =>
        obtain ⟨others, hothers, hmost⟩ :=
          (selectApprovalRule_eq_some_iff rules environment operation rule).mp hselect
        exact (selectApprovalRule_eq_some_iff rules' environment operation rule).mpr
          ⟨others, hmatching.trans hothers, hmost⟩
  · intro a _ b _ ha hb hrank
    simp only [ApprovalRule.rank, Prod.mk.injEq] at hrank
    exact pattern_eq_of_isFor ha hb hrank.2.1 hrank.2.2

end OperationAuthoring

end FrappeController
