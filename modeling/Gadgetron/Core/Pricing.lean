import Mathlib.Algebra.Group.Int.Defs
import Gadgetron.Lib.Text

/-!
# Model pricing

`compute_cost_cents`: the cost of a completion in whole cents, from its tokens and the rates of its
model in cents for a million tokens.
-/

namespace Gadgetron

open Lib List

structure ModelRate where
  (inputCentsPerMillion outputCentsPerMillion : ℕ)
  deriving DecidableEq

def unknownModelRate : ModelRate := ⟨0, 0⟩

abbrev PricingTable := List (String × ModelRate)

def defaultPricingTable : PricingTable :=
  [("gpt-4o", ⟨250, 1000⟩), ("gpt-4o-mini", ⟨15, 60⟩), ("claude-sonnet-4-6", ⟨300, 1500⟩),
    ("claude-opus-4-7", ⟨1500, 7500⟩), ("claude-haiku-4-5", ⟨80, 400⟩), ("penny", ⟨0, 0⟩),
    ("mock", ⟨0, 0⟩), ("mock-model", ⟨0, 0⟩)]

/-- A model without the last part of its name, where that looks like the end of a date. -/
def stripDate (model : String) : String :=
  match rsplitOnce '-' model.toList with
  | some (stem, suffix) =>
    if (suffix.all fun c => c.isDigit || c == '-') && 4 ≤ suffix.length then String.ofList stem
    else model
  | none => model

def rateForModel (table : PricingTable) (model : String) : ModelRate :=
  (table.lookup model).getD ((table.lookup (stripDate model)).getD unknownModelRate)

/-- `u64::saturating_mul`. -/
def saturatingMul (m n : ℕ) : ℕ := min (m * n) (2 ^ 64 - 1)

/-- The sum of the products wraps, as `+` of `u64` does where overflow checks are off. -/
def computeCostCents (model : String) (inputTokens outputTokens : ℕ) (table : PricingTable) : ℤ :=
  let rate := rateForModel table model
  let input := saturatingMul inputTokens rate.inputCentsPerMillion
  let output := saturatingMul outputTokens rate.outputCentsPerMillion
  ((input + output) % 2 ^ 64 / 1000000 : ℕ)

variable {model : String} {table : PricingTable}

theorem rateForModel_eq (table : PricingTable) (model : String) :
    rateForModel table model = unknownModelRate ∨
      ∃ name, (name, rateForModel table model) ∈ table := by
  have hmem : ∀ {name rate}, table.lookup name = some rate → (name, rate) ∈ table := by
    intro name rate h
    obtain ⟨before, after, heq, -⟩ := List.lookup_eq_some_iff.1 h
    rw [heq]
    exact mem_append_cons_self
  unfold rateForModel
  cases hfull : table.lookup model with
  | some rate => exact .inr ⟨model, hmem hfull⟩
  | none =>
    cases hstripped : table.lookup (stripDate model) with
    | some rate => exact .inr ⟨stripDate model, hmem hstripped⟩
    | none => exact .inl rfl

theorem rateForModel_le (model : String) :
    (rateForModel defaultPricingTable model).inputCentsPerMillion ≤ 1500 ∧
      (rateForModel defaultPricingTable model).outputCentsPerMillion ≤ 7500 := by
  rcases rateForModel_eq defaultPricingTable model with h | ⟨name, hmem⟩
  · rw [h]
    decide
  · have hall : ∀ entry ∈ defaultPricingTable, entry.2.inputCentsPerMillion ≤ 1500 ∧
        entry.2.outputCentsPerMillion ≤ 7500 := by decide
    exact hall _ hmem

theorem computeCostCents_eq_zero (model : String) (inputTokens outputTokens : UInt32) :
    computeCostCents model inputTokens.toNat outputTokens.toNat defaultPricingTable = 0 ↔
      inputTokens.toNat * (rateForModel defaultPricingTable model).inputCentsPerMillion +
        outputTokens.toNat * (rateForModel defaultPricingTable model).outputCentsPerMillion <
          1000000 := by
  have hle := rateForModel_le model
  have hinput := Nat.mul_le_mul inputTokens.toNat_lt.le hle.1
  have houtput := Nat.mul_le_mul outputTokens.toNat_lt.le hle.2
  unfold computeCostCents saturatingMul
  dsimp only
  omega

/-! ## Costs without overflow -/

/-- The products, each at most `u64::MAX`, have their sum in `u64`. -/
def SumFits (model : String) (inputTokens outputTokens : ℕ) (table : PricingTable) : Prop :=
  saturatingMul inputTokens (rateForModel table model).inputCentsPerMillion +
    saturatingMul outputTokens (rateForModel table model).outputCentsPerMillion < 2 ^ 64

instance {m n : ℕ} : Decidable (SumFits model m n table) := Nat.decLt _ _

theorem SumFits.computeCostCents_eq {m n : ℕ} (h : SumFits model m n table) :
    computeCostCents model m n table =
      ((saturatingMul m (rateForModel table model).inputCentsPerMillion +
        saturatingMul n (rateForModel table model).outputCentsPerMillion) / 1000000 : ℕ) := by
  unfold computeCostCents
  dsimp only
  rw [Nat.mod_eq_of_lt h]

theorem saturatingMul_mono {m m' : ℕ} (h : m ≤ m') (rate : ℕ) :
    saturatingMul m rate ≤ saturatingMul m' rate :=
  min_le_min_right _ (Nat.mul_le_mul_right rate h)

theorem saturatingMul_eq {m rate : ℕ} (h : m * rate < 2 ^ 64) : saturatingMul m rate = m * rate :=
  min_eq_left (by omega)

/-- Where the sum of the capped products is in `u64`, the cost is the whole part of its millionth,
of the exact sum when neither is capped, and never more; it is in `i64`, and no smaller count costs
more. -/
theorem computeCostCents_floor (inputTokens outputTokens : UInt64)
    (h : SumFits model inputTokens.toNat outputTokens.toNat table) :
    let rate := rateForModel table model
    let input := inputTokens.toNat * rate.inputCentsPerMillion
    let output := outputTokens.toNat * rate.outputCentsPerMillion
    let cost := computeCostCents model inputTokens.toNat outputTokens.toNat table
    cost = ((min input (2 ^ 64 - 1) + min output (2 ^ 64 - 1)) / 1000000 : ℕ) ∧
      (input < 2 ^ 64 → output < 2 ^ 64 → cost = ((input + output) / 1000000 : ℕ)) ∧
      cost ≤ ((input + output) / 1000000 : ℕ) ∧ cost < 2 ^ 63 ∧
      ∀ fewerInput ≤ inputTokens, ∀ fewerOutput ≤ outputTokens,
        computeCostCents model fewerInput.toNat fewerOutput.toNat table ≤ cost := by
  intro rate input output cost
  have hcost : cost = _ := h.computeCostCents_eq
  have hcapped : saturatingMul inputTokens.toNat rate.inputCentsPerMillion +
      saturatingMul outputTokens.toNat rate.outputCentsPerMillion ≤ input + output :=
    Nat.add_le_add (min_le_left _ _) (min_le_left _ _)
  refine ⟨hcost, fun hinput houtput => ?_, ?_, ?_, fun m hm n hn => ?_⟩
  · rw [hcost, saturatingMul_eq hinput, saturatingMul_eq houtput]
  · rw [hcost]
    exact Int.ofNat_le.2 (Nat.div_le_div_right hcapped)
  · unfold SumFits at h
    omega
  · have hle := Nat.add_le_add (saturatingMul_mono hm rate.inputCentsPerMillion)
      (saturatingMul_mono hn rate.outputCentsPerMillion)
    have hfits : SumFits model m.toNat n.toNat table := hle.trans_lt h
    rw [hcost, hfits.computeCostCents_eq]
    exact Int.ofNat_le.2 (Nat.div_le_div_right hle)

theorem computeCostCents_floor_request : SumFits "gpt-4o" 2000 1000 defaultPricingTable ∧
      computeCostCents "gpt-4o" 2000 1000 defaultPricingTable = 1 :=
  have hfits : SumFits "gpt-4o" 2000 1000 defaultPricingTable := by decide +kernel
  ⟨hfits, (computeCostCents_floor 2000 1000 hfits).1.trans (by decide +kernel)⟩

/-- The cap of one product is below the exact cost. -/
theorem cappedCost_not_exact : ¬ ∀ (model : String) (inputTokens outputTokens : UInt64),
      SumFits model inputTokens.toNat outputTokens.toNat defaultPricingTable ∧
      computeCostCents model inputTokens.toNat outputTokens.toNat defaultPricingTable =
        min ((inputTokens.toNat * (rateForModel defaultPricingTable model).inputCentsPerMillion +
          outputTokens.toNat * (rateForModel defaultPricingTable model).outputCentsPerMillion) /
            1000000 : ℕ) (2 ^ 63 - 1) := by
  intro h
  have hcapped := (h "gpt-4o" (UInt64.ofNat (2 ^ 64 - 1)) 0).2
  revert hcapped
  decide +kernel

/-! ## Dated names -/

/-- A date at the end of a name: the digits of its year, month and day, with `-` between them or
without. -/
structure DateSuffix where
  digits : List Char
  dashed : Bool
  length_eq : digits.length = 8
  isDigit : ∀ c ∈ digits, c.isDigit

def DateSuffix.text (suffix : DateSuffix) : List Char :=
  if suffix.dashed then
    '-' :: suffix.digits.take 4 ++ '-' :: (suffix.digits.drop 4).take 2 ++
      '-' :: suffix.digits.drop 6
  else '-' :: suffix.digits

variable (suffix : DateSuffix)

theorem DateSuffix.text_eq : ∃ before a b, suffix.text = before ++ [a, b] ∧
    a.isDigit ∧ b.isDigit ∧ suffix.digits.drop 6 = [a, b] := by
  obtain ⟨a, b, hlast⟩ := length_eq_two.1
    (show (suffix.digits.drop 6).length = 2 by rw [length_drop, suffix.length_eq])
  have hmem : ∀ c ∈ suffix.digits.drop 6, c.isDigit := fun c hc =>
    suffix.isDigit c (mem_of_mem_drop hc)
  rw [hlast] at hmem
  refine ⟨if suffix.dashed then '-' :: suffix.digits.take 4 ++
      '-' :: (suffix.digits.drop 4).take 2 ++ ['-'] else '-' :: suffix.digits.take 6, a, b, ?_,
    hmem a (by simp), hmem b (by simp), hlast⟩
  have hdigits := take_append_drop 6 suffix.digits
  rw [hlast] at hdigits
  unfold text
  split_ifs
  · rw [hlast]
    simp
  · rw [cons_append, hdigits]

theorem lookup_dated (stem : List Char) :
    defaultPricingTable.lookup (String.ofList (stem ++ suffix.text)) = none := by
  rw [lookup_eq_none_iff]
  rintro ⟨name, rate⟩ hentry
  rw [bne_iff_ne]
  intro (heq : String.ofList (stem ++ suffix.text) = name)
  have hall : ∀ entry ∈ defaultPricingTable,
      (entry.1.toList.reverse.take 2).all (·.isDigit) = false := by decide +kernel
  obtain ⟨before, a, b, htext, ha, hb, -⟩ := suffix.text_eq
  have hname : name.toList.reverse = b :: a :: (stem ++ before).reverse := by
    rw [← heq, String.toList_ofList, htext, ← List.append_assoc, reverse_append]
    rfl
  have hlast := hall _ hentry
  rw [hname] at hlast
  simp [ha, hb] at hlast

theorem dash_notMem {digits : List Char} (h : ∀ c ∈ digits, c.isDigit) : '-' ∉ digits :=
  fun hmem => absurd (h '-' hmem) (by decide)

theorem stripDate_compact (stem : List Char) (h : suffix.dashed = false) :
    stripDate (String.ofList (stem ++ suffix.text)) = String.ofList stem := by
  have hall : (suffix.digits.all fun c => c.isDigit || c == '-') = true :=
    List.all_eq_true.2 fun c hc => by rw [suffix.isDigit c hc, Bool.true_or]
  have htext : suffix.text = '-' :: suffix.digits := by simp [DateSuffix.text, h]
  unfold stripDate
  rw [String.toList_ofList, htext, rsplitOnce_append (dash_notMem suffix.isDigit)]
  simp [hall, suffix.length_eq]

theorem stripDate_dashed (stem : List Char) (h : suffix.dashed = true) :
    stripDate (String.ofList (stem ++ suffix.text)) = String.ofList (stem ++ suffix.text) := by
  have hdigits : ∀ c ∈ suffix.digits.drop 6, c.isDigit := fun c hc =>
    suffix.isDigit c (mem_of_mem_drop hc)
  have htext : stem ++ suffix.text = (stem ++ '-' :: suffix.digits.take 4 ++
      '-' :: (suffix.digits.drop 4).take 2) ++ '-' :: suffix.digits.drop 6 := by
    simp [DateSuffix.text, h]
  have hshort : ¬ 4 ≤ (suffix.digits.drop 6).length := by
    rw [length_drop, suffix.length_eq]
    omega
  unfold stripDate
  rw [String.toList_ofList, htext, rsplitOnce_append (dash_notMem hdigits)]
  dsimp only
  rw [decide_eq_false hshort, Bool.and_false]
  rfl

/-- A dated name has the rate of its model just when the date is written without `-`, or the model
is free. -/
theorem rateForModel_dated_iff {rate : ModelRate} (h : (model, rate) ∈ defaultPricingTable) :
    rateForModel defaultPricingTable (String.ofList (model.toList ++ suffix.text)) =
        rateForModel defaultPricingTable model ↔
      suffix.dashed = false ∨ rate.inputCentsPerMillion = 0 ∧ rate.outputCentsPerMillion = 0 := by
  have hself : ∀ entry ∈ defaultPricingTable,
      defaultPricingTable.lookup entry.1 = some entry.2 := by decide +kernel
  have hmodel : rateForModel defaultPricingTable model = rate := by
    rw [rateForModel, hself _ h, Option.getD_some]
  rw [hmodel, rateForModel, lookup_dated, Option.getD_none]
  cases hdashed : suffix.dashed with
  | false =>
    rw [stripDate_compact suffix _ hdashed, String.ofList_toList, hself _ h]
    simp
  | true =>
    rw [stripDate_dashed suffix _ hdashed, lookup_dated]
    obtain ⟨input, output⟩ := rate
    simp [unknownModelRate, eq_comm]

def july : DateSuffix := ⟨"20240718".toList, true, by decide, List.all_eq_true.1 (by decide)⟩

theorem rateForModel_dated_mini :
    rateForModel defaultPricingTable "gpt-4o-mini-20240718" = ⟨15, 60⟩ :=
  ((rateForModel_dated_iff { july with dashed := false }
    (show ("gpt-4o-mini", ⟨15, 60⟩) ∈ defaultPricingTable by decide)).2 (.inl rfl)).trans
      (by decide +kernel)

theorem rateForModel_not_dated : ¬ ∀ (model : String) (rate : ModelRate) (suffix : DateSuffix),
      (model, rate) ∈ defaultPricingTable →
      rateForModel defaultPricingTable (String.ofList (model.toList ++ suffix.text)) =
        rateForModel defaultPricingTable model := by
  intro h
  have hdated := h "gpt-4o" ⟨250, 1000⟩ july (by decide)
  revert hdated
  decide +kernel

end Gadgetron
