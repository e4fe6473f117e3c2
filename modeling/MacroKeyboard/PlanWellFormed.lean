import MacroKeyboard.ParseErrors

namespace MacroKeyboard.PlanWellFormed

open Keymap FirmwareCompiler ParseErrors

/-- The simultaneous keys of one report: at most six, distinct, none of them
the empty usage, under a legal modifier mask. -/
structure ReportOk (modifiers : UInt8) (usages : List UInt8) : Prop where
  legal : legalModifiers modifiers
  atMostSix : usages.length ≤ macroActionUsagesMax
  distinct : usages.Nodup
  nonzero : 0 ∉ usages

/-- A key or chord presses something the report can carry; a delay lasts as
long as the language allows and presses nothing. -/
def ActionOk (action : MacroAction) : Prop :=
  match action.type with
  | .delay => 1 ≤ action.delayMs.toNat ∧ action.delayMs.toNat ≤ 10000 ∧
      action.modifiers = 0 ∧ action.usages = []
  | .key | .chord => ReportOk action.modifiers action.usages ∧
      (action.usages ≠ [] ∨ action.modifiers ≠ 0)

def totalCost (options : MacroCompileOptions) (actions : List MacroAction) : Nat :=
  (actions.map (MacroAction.cost options)).sum

/-- What every compiled plan satisfies. The last two fields say that neither
the sum for one action nor any running total leaves 32 bits. -/
structure PlanOk (options : MacroCompileOptions) (plan : MacroPlan) : Prop where
  actionCount_le : plan.actionCount ≤ Limits.compiledActionsMax
  actions_ok : ∀ action ∈ plan.actionList, ActionOk action
  estimate_eq : plan.estimatedDurationMs.toNat = totalCost options plan.actionList
  estimate_le : plan.estimatedDurationMs.toNat ≤ 300000
  action_no_wrap : options.keyPressMs.toNat + options.interKeyMs.toNat < 2 ^ 32
  running_no_wrap : ∀ k, totalCost options (plan.actionList.take k) < 2 ^ 32

theorem totalCost_take_le (options : MacroCompileOptions) (actions : List MacroAction) (k : Nat) :
    totalCost options (actions.take k) ≤ totalCost options actions := by
  unfold totalCost
  exact ((List.take_sublist k actions).map _).sum_le_sum (by simp)

theorem estimatedDurationMaxMs_toNat : Limits.estimatedDurationMaxMs.toNat = 300000 := by decide

theorem safeAdd_eq_some {left right sum : UInt32} (h : v2SafeAddU32 left right = some sum) :
    sum.toNat = left.toNat + right.toNat := by
  unfold v2SafeAddU32 at h
  split_ifs at h with hlt
  cases h
  have hl := left.toNat_lt
  have hmax : uint32Max.toNat = 2 ^ 32 - 1 := by decide
  rw [UInt32.toNat_add, Nat.mod_eq_of_lt]
  omega

theorem keyAction_ok {key : HidKey} (hk : key.usage ≠ 0 ∨ key.modifiers ≠ 0)
    (hl : legalModifiers key.modifiers) : ActionOk (v2KeyAction key) := by
  by_cases h0 : key.usage = 0
  · refine ⟨⟨hl, by simp [v2KeyAction, h0], by simp [v2KeyAction, h0], by simp [v2KeyAction, h0]⟩, ?_⟩
    exact Or.inr (hk.resolve_left (fun h => h h0))
  · refine ⟨⟨hl, by simp [v2KeyAction, h0, macroActionUsagesMax], by simp [v2KeyAction, h0],
      by simpa [v2KeyAction, h0] using Ne.symm h0⟩, Or.inl (by simp [v2KeyAction, h0])⟩

theorem printableAction_ok {c : UInt8} {key : HidKey} (h : macroKeymapUsPrintable c = some key) :
    ActionOk (v2KeyAction key) :=
  keyAction_ok (Or.inl (printable_legal c key h).1) (printable_legal c key h).2

theorem parseDelay_ok {directive : List UInt8} {action : MacroAction}
    (h : v2ParseDelay directive = .ok action) : ActionOk action ∧ action.type = .delay := by
  unfold v2ParseDelay at h
  split_ifs at h
  split at h
  · cases h
  · next value _ =>
    split_ifs at h with hv
    cases h
    simp only [not_or, Limits.delayDirectiveMaxMs] at hv
    obtain ⟨hpos, hle⟩ := hv
    rw [gt_iff_lt, UInt32.lt_iff_toNat_lt] at hle
    have hmax : value.toNat ≤ 10000 := Nat.not_lt.mp hle
    have hmin : 1 ≤ value.toNat := Nat.one_le_iff_ne_zero.mpr fun h0 => hpos (UInt32.toNat_inj.mp h0)
    exact ⟨⟨hmin, hmax, rfl, rfl⟩, rfl⟩

theorem parseDirective_ok {source directive : List UInt8} {offset : Nat} {action : MacroAction}
    (h : v2ParseDirective source offset directive = .ok action) : ActionOk action := by
  unfold v2ParseDirective at h
  split_ifs at h
  · split at h
    · cases h
    · cases h
    · next hd =>
      cases h
      exact (parseDelay_ok hd).1
  · split at h
    · cases h
    · next key hk =>
      cases h
      exact keyAction_ok (namedDirective_legal directive key hk).1 (namedDirective_legal directive key hk).2

theorem parseEscape_ok {bracket : UInt8} {source : List UInt8} {offset : Nat} {token : Token}
    (h : v2ParseEscape bracket source offset = .ok token) :
    ActionOk token.action ∧ token.consumed = 2 := by
  unfold v2ParseEscape at h
  split at h
  · cases h
  · next key hk =>
    cases h
    exact ⟨printableAction_ok hk, rfl⟩

theorem parseOpenBrace_ok {source : List UInt8} {offset : Nat} {token : Token}
    (h : v2ParseOpenBrace source offset = .ok token) : ActionOk token.action := by
  unfold v2ParseOpenBrace at h
  split_ifs at h
  · exact (parseEscape_ok h).1
  · split at h
    · cases h
    · split at h
      · cases h
      · next hd =>
        cases h
        exact parseDirective_ok hd

theorem parseNonBracketToken_ok {source : List UInt8} {offset : Nat} {token : Token}
    (h : v2ParseNonBracketToken source offset = .ok token) : ActionOk token.action := by
  have enter_ok : ActionOk (v2KeyAction ⟨0, hidUsageEnter⟩) :=
    keyAction_ok (Or.inl (by decide)) (by decide)
  have tab_ok : ActionOk (v2KeyAction ⟨0, hidUsageTab⟩) :=
    keyAction_ok (Or.inl (by decide)) (by decide)
  unfold v2ParseNonBracketToken at h
  dsimp only at h
  split_ifs at h
  · cases h; exact enter_ok
  · cases h; exact enter_ok
  · cases h; exact tab_ok
  · exact parseOpenBrace_ok h
  · unfold v2ParseCloseBrace at h
    split_ifs at h
    exact (parseEscape_ok h).1
  · unfold v2ParsePrintable at h
    split at h
    · cases h
    · next key hk =>
      cases h
      exact printableAction_ok hk

theorem reportOk_empty : ReportOk 0 [] := ⟨by decide, by decide, List.nodup_nil, List.not_mem_nil⟩

theorem reportOk_of_key {action : MacroAction} (h : ActionOk action) (ht : action.type ≠ .delay) :
    ReportOk action.modifiers action.usages := by
  unfold ActionOk at h
  split at h
  · contradiction
  · exact h.1
  · exact h.1

theorem mergeUsages_ok {source : List UInt8} {offset : Nat} :
    ∀ {usages : List UInt8} {out result : GroupAccumulator}, ReportOk out.modifiers out.usages →
    0 ∉ usages → v2MergeUsages source offset usages out = .ok result →
    ReportOk result.modifiers result.usages := by
  intro usages
  induction usages with
  | nil =>
    intro out result hout _ h
    cases h
    exact hout
  | cons usage rest ih =>
    intro out result hout hz h
    unfold v2MergeUsages at h
    split_ifs at h with hdup hfull
    obtain ⟨hne, hrest⟩ := List.ne_and_not_mem_of_not_mem_cons hz
    have hnew : ReportOk out.modifiers (out.usages ++ [usage]) := by
      refine ⟨hout.legal, ?_, ?_, ?_⟩
      · simp only [List.length_append, List.length_singleton]
        omega
      · exact List.nodup_append.mpr ⟨hout.distinct, List.nodup_singleton _, by grind⟩
      · simp only [List.mem_append, List.mem_singleton, not_or]
        exact ⟨hout.nonzero, hne⟩
    exact @ih ⟨out.modifiers, out.usages ++ [usage]⟩ _ hnew hrest h

theorem or_legal {a b : UInt8} (ha : legalModifiers a) (hb : legalModifiers b) :
    legalModifiers (a ||| b) := by
  unfold legalModifiers at *
  have hab : (a ||| b) &&& 0xf0 = (a &&& 0xf0) ||| (b &&& 0xf0) :=
    UInt8.toBitVec_inj.mp (BitVec.and_or_distrib_right ..)
  rw [hab, ha, hb, UInt8.or_zero]

theorem mergeGroupMember_ok {source : List UInt8} {offset : Nat} {out result : GroupAccumulator}
    {modifiers : UInt8} {usages : List UInt8} (hout : ReportOk out.modifiers out.usages)
    (hm : ReportOk modifiers usages)
    (h : v2MergeGroupMember out modifiers usages source offset = .ok result) :
    ReportOk result.modifiers result.usages := by
  unfold v2MergeGroupMember at h
  split_ifs at h
  have hlegal : legalModifiers (out.modifiers ||| modifiers) := by
    have ho : out.modifiers &&& 0xf0 = 0 := hout.legal
    have hl : modifiers &&& 0xf0 = 0 := hm.legal
    exact or_legal ho hl
  have hnew : ReportOk (out.modifiers ||| modifiers) out.usages :=
    ⟨hlegal, hout.atMostSix, hout.distinct, hout.nonzero⟩
  exact mergeUsages_ok hnew hm.nonzero h

theorem mergeLiteralBracket_ok {source : List UInt8} {offset : Nat} {out result : GroupAccumulator}
    {bracket : UInt8} (hout : ReportOk out.modifiers out.usages)
    (h : v2MergeLiteralBracket bracket out source offset = .ok result) :
    ReportOk result.modifiers result.usages := by
  unfold v2MergeLiteralBracket at h
  split at h
  · cases h
  · next key hk =>
    exact mergeGroupMember_ok hout (reportOk_of_key (printableAction_ok hk) nofun) h

/-- A step inside a group keeps the accumulator a pressable report, and the
group only closes on one that presses something. -/
theorem scanGroupStep_ok {source : List UInt8} {bracketOffset offset : Nat} {out : GroupAccumulator}
    {step : GroupStep} (hout : ReportOk out.modifiers out.usages)
    (h : v2ScanGroupStep source bracketOffset offset out = .ok step) :
    match step with
    | .more result _ => ReportOk result.modifiers result.usages
    | .done => out.usages ≠ [] ∨ out.modifiers ≠ 0 := by
  unfold v2ScanGroupStep at h
  dsimp only at h
  have more_ok : ∀ {merged : Except MacroParseError GroupAccumulator} {consumed : Nat},
      (∀ result, merged = .ok result → ReportOk result.modifiers result.usages) →
      merged.map (GroupStep.more · consumed) = .ok step →
      match step with
      | .more result _ => ReportOk result.modifiers result.usages
      | .done => out.usages ≠ [] ∨ out.modifiers ≠ 0 := by
    intro merged consumed hok hmap
    cases merged with
    | error error => cases hmap
    | ok result =>
      cases hmap
      exact hok result rfl
  split_ifs at h with hclose hdoubled hempty hopen hdoubled
  · exact more_ok (fun _ => mergeLiteralBracket_ok hout) h
  · cases h
    simp only [List.length_eq_zero_iff, not_and_or] at hempty
    exact hempty
  · exact more_ok (fun _ => mergeLiteralBracket_ok hout) h
  · split at h
    · cases h
    · next member hmember =>
      split_ifs at h with hdelay
      have hkey := reportOk_of_key (parseNonBracketToken_ok hmember) hdelay
      exact more_ok (fun _ => mergeGroupMember_ok hout hkey) h

theorem scanGroupContent_ok {source : List UInt8} {bracketOffset : Nat} :
    ∀ {fuel offset : Nat} {out result : GroupAccumulator} {groupEnd : Nat},
    ReportOk out.modifiers out.usages →
    v2ScanGroupContent source bracketOffset fuel offset out = .ok (result, groupEnd) →
    ReportOk result.modifiers result.usages ∧ (result.usages ≠ [] ∨ result.modifiers ≠ 0) := by
  intro fuel
  induction fuel with
  | zero =>
    intro offset out result groupEnd _ h
    cases h
  | succ fuel ih =>
    intro offset out result groupEnd hout h
    unfold v2ScanGroupContent at h
    split_ifs at h
    split at h
    · cases h
    · next hstep =>
      cases h
      exact ⟨hout, scanGroupStep_ok hout hstep⟩
    · next hstep => exact ih (scanGroupStep_ok hout hstep) h

theorem parseOpenBracket_ok {source : List UInt8} {offset : Nat} {token : Token}
    (h : v2ParseOpenBracket source offset = .ok token) : ActionOk token.action := by
  unfold v2ParseOpenBracket at h
  split_ifs at h
  · exact (parseEscape_ok h).1
  · split at h
    · cases h
    · next hscan =>
      cases h
      exact scanGroupContent_ok reportOk_empty hscan

theorem parseNextToken_ok {source : List UInt8} {offset : Nat} {token : Token}
    (h : v2ParseNextToken source offset = .ok token) : ActionOk token.action := by
  unfold v2ParseNextToken at h
  split_ifs at h
  · exact parseOpenBracket_ok h
  · unfold v2ParseCloseBracket at h
    split_ifs at h
    exact (parseEscape_ok h).1
  · exact parseNonBracketToken_ok h

/-- The sum computed for one action is its cost, when the timings add up
without leaving 32 bits. -/
theorem actionDuration_eq {options : MacroCompileOptions} {action : MacroAction} {duration : UInt32}
    (h : v2ActionDuration options action = some duration) :
    duration.toNat = action.cost options := by
  unfold v2ActionDuration at h
  unfold MacroAction.cost
  split_ifs at h with ht
  · cases h
    rw [ht]
  · rw [safeAdd_eq_some h]
    split
    · contradiction
    · rfl
    · rfl

/-- What appending does: the new running total is the old one plus the cost of
the action, and was checked against the limit. -/
theorem appendAction_cases {plan result : MacroPlan} {action : MacroAction}
    {options : MacroCompileOptions} {source : List UInt8} {offset : Nat}
    (h : v2AppendAction plan action options source offset = .ok result) :
    plan.actionCount < Limits.compiledActionsMax ∧ ∃ total,
      total.toNat = plan.estimatedDurationMs.toNat + action.cost options ∧
      total.toNat ≤ 300000 ∧ result = ⟨plan.actions.map (· ++ [action]), total⟩ := by
  unfold v2AppendAction at h
  by_cases hcount : plan.actionCount ≥ Limits.compiledActionsMax
  · rw [if_pos hcount] at h
    cases h
  rw [if_neg hcount] at h
  cases hduration : v2ActionDuration options action with
  | none =>
    rw [hduration] at h
    cases h
  | some duration =>
    rw [hduration] at h
    cases htotal : v2SafeAddU32 plan.estimatedDurationMs duration with
    | none =>
      simp only [htotal] at h
      cases h
    | some total =>
      simp only [htotal] at h
      split_ifs at h with hlimit
      cases h
      refine ⟨Nat.not_le.mp hcount, total, ?_, ?_, rfl⟩
      · rw [safeAdd_eq_some htotal, actionDuration_eq hduration]
      · rw [gt_iff_lt, UInt32.lt_iff_toNat_lt, estimatedDurationMaxMs_toNat] at hlimit
        exact Nat.not_lt.mp hlimit

theorem appendAction_ok {plan result : MacroPlan} {action : MacroAction}
    {options : MacroCompileOptions} {source : List UInt8} {offset : Nat} (hs : plan.actions.isSome)
    (hplan : PlanOk options plan) (haction : ActionOk action)
    (h : v2AppendAction plan action options source offset = .ok result) :
    result.actions.isSome ∧ PlanOk options result := by
  obtain ⟨hcount, total, hsum, hle, rfl⟩ := appendAction_cases h
  obtain ⟨actions, hactions⟩ := Option.isSome_iff_exists.mp hs
  have hold : plan.actionList = actions := by simp [MacroPlan.actionList, hactions]
  have hnew : (⟨plan.actions.map (· ++ [action]), total⟩ : MacroPlan).actionList =
      actions ++ [action] := by simp [MacroPlan.actionList, hactions]
  have hcost : total.toNat = totalCost options (actions ++ [action]) := by
    rw [hsum, hplan.estimate_eq, hold]
    simp [totalCost]
  refine ⟨by simp [hactions], ?_, ?_, ?_, hle, hplan.action_no_wrap, ?_⟩
  · rw [MacroPlan.actionCount, hold] at hcount
    rw [MacroPlan.actionCount, hnew, List.length_append, List.length_singleton]
    omega
  · intro other hother
    rw [hnew, List.mem_append, List.mem_singleton] at hother
    rcases hother with hin | rfl
    · exact hplan.actions_ok other (hold ▸ hin)
    · exact haction
  · rw [hnew]
    exact hcost
  · intro k
    have hk := totalCost_take_le options (actions ++ [action]) k
    rw [hnew]
    omega

theorem compileTokens_ok {source : List UInt8} {options : MacroCompileOptions} :
    ∀ {fuel offset : Nat} {working result : MacroPlan}, working.actions.isSome →
    PlanOk options working → v2CompileTokens source options fuel offset working = .ok result →
    result.actions.isSome ∧ PlanOk options result := by
  intro fuel
  induction fuel with
  | zero =>
    intro offset working result hs hplan h
    cases h
    exact ⟨hs, hplan⟩
  | succ fuel ih =>
    intro offset working result hs hplan h
    unfold v2CompileTokens at h
    split_ifs at h
    · split at h
      · cases h
      · next token htoken =>
        split at h
        · cases h
        · next happend =>
          obtain ⟨hs', hplan'⟩ := appendAction_ok hs hplan (parseNextToken_ok htoken) happend
          exact ih hs' hplan' h
    · cases h
      exact ⟨hs, hplan⟩

theorem emptyPlan_ok {options : MacroCompileOptions} {actions : Option (List MacroAction)}
    (hempty : actions.getD [] = []) (hsum : options.keyPressMs.toNat + options.interKeyMs.toNat < 2 ^ 32) :
    PlanOk options ⟨actions, 0⟩ := by
  refine ⟨?_, ?_, ?_, Nat.zero_le _, hsum, ?_⟩ <;>
    simp [MacroPlan.actionCount, MacroPlan.actionList, hempty, totalCost]

theorem timings_no_wrap {options : MacroCompileOptions}
    (h : ¬ (options.keyPressMs > Limits.keyPressMaxMs ∨ options.interKeyMs > Limits.interKeyMaxMs)) :
    options.keyPressMs.toNat + options.interKeyMs.toNat < 2 ^ 32 := by
  rw [not_or, gt_iff_lt, gt_iff_lt, UInt32.lt_iff_toNat_lt, UInt32.lt_iff_toNat_lt] at h
  have hpress : Limits.keyPressMaxMs.toNat = 10000 := by decide
  have hinter : Limits.interKeyMaxMs.toNat = 10000 := by decide
  omega

/-- What a call leaves behind: on success a well-formed plan and the one heap
block of its actions, none when it is empty; on failure nothing. -/
structure OutcomeOk (options : MacroCompileOptions) (outcome : CompileOutcome) : Prop where
  success : outcome.result = .none → PlanOk options outcome.outPlan ∧
    outcome.blocksHeld = if outcome.outPlan.actions.isSome then 1 else 0
  failure : outcome.result ≠ .none → outcome.outPlan.actions = none ∧
    outcome.outPlan.actionCount = 0 ∧ outcome.outPlan.estimatedDurationMs = 0 ∧
    outcome.blocksHeld = 0

/-- How a compilation ends: with nothing, or with a well-formed plan. -/
inductive Ended (options : MacroCompileOptions) : CompileOutcome → Prop
  | failed {code : AppError} {error : MacroParseError} (h : code ≠ .none) : Ended options ⟨code, clearedPlan, error, 0⟩
  | compiled {plan : MacroPlan} (h : PlanOk options plan) :
    Ended options ⟨.none, plan, clearedError, if plan.actions.isSome then 1 else 0⟩

theorem macroCompileV2_ended (callocOk : Bool) (source : List UInt8) (options : Option MacroCompileOptions) :
    Ended (options.getD defaultOptions) (macroCompileV2 callocOk source options) := by
  unfold macroCompileV2
  dsimp only
  split_ifs with htimings _ _ hcalloc
  · exact .failed (fun h => by cases h)
  · exact .failed (fun h => by cases h)
  · exact .compiled (emptyPlan_ok rfl (timings_no_wrap htimings))
  · have hstart : PlanOk (options.getD defaultOptions) ⟨some [], 0⟩ :=
      emptyPlan_ok rfl (timings_no_wrap htimings)
    split
    · next error h =>
      refine .failed fun h0 => ?_
      rcases (compileTokens_fails error h).1 with hcode | hcode
      · rw [h0] at hcode; contradiction
      · rw [h0] at hcode; contradiction
    · next working h =>
      obtain ⟨hsome, hplan⟩ := compileTokens_ok rfl hstart h
      split_ifs with hcount
      · exact .compiled (emptyPlan_ok rfl (timings_no_wrap htimings))
      · simpa [hsome] using Ended.compiled hplan
  · exact .failed (fun h => by cases h)

theorem planOk_of_compiled {callocOk : Bool} {source : List UInt8} {options : Option MacroCompileOptions}
    (h : (macroCompileV2 callocOk source options).result = .none) :
    PlanOk (options.getD defaultOptions) (macroCompileV2 callocOk source options).outPlan := by
  have hended := macroCompileV2_ended callocOk source options
  generalize macroCompileV2 callocOk source options = outcome at h hended
  cases hended with
  | failed hcode => exact absurd h hcode
  | compiled hplan => exact hplan

/-- Whatever the source and the timings, a successful compilation yields a
well-formed plan and a failed one holds no memory. -/
theorem macroCompileV2_wellFormed (callocOk : Bool) (source : List UInt8)
    (options : Option MacroCompileOptions) :
    OutcomeOk (options.getD defaultOptions) (macroCompileV2 callocOk source options) := by
  have hended := macroCompileV2_ended callocOk source options
  generalize macroCompileV2 callocOk source options = outcome at hended
  cases hended with
  | failed hcode => exact ⟨fun h => absurd h hcode, fun _ => ⟨rfl, rfl, rfl, rfl⟩⟩
  | compiled hplan => exact ⟨fun _ => ⟨hplan, rfl⟩, fun h => absurd rfl h⟩

end MacroKeyboard.PlanWellFormed
