import Mathlib.Logic.Function.Iterate
import Settlement.Proofs.Exact.Run
/-!
What grows back. A round of growth takes a stock that is below its target a part of the way there,
so it is a mean of the two: it never falls, never passes the target and keeps the order of stocks.
As growth is the last phase that changes a stock which is not negative, every tick ends with that
part of the target at least.
-/
namespace Settlement

/-- A target that stocks approach and do not pass. -/
structure Target.Regular (target : Target ℝ) : Prop where
  level : 0 ≤ target.level
  rate : target.rate ∈ Set.Icc 0 1

namespace Target

variable {target : Target ℝ} {stock more : ℝ}

theorem regrow_of_le (enough : target.level ≤ stock) : target.regrow stock = stock :=
  if_neg (not_lt.mpr enough)

/-- Of what a stock lacks, a round of growth leaves all but the rate. -/
theorem regrow_of_lt (below : stock < target.level) :
    target.regrow stock = target.level - (1 - target.rate) * (target.level - stock) := by
  rw [regrow, if_pos below]
  ring

namespace Regular

variable (regular : target.Regular)
include regular

theorem le_regrow : stock ≤ target.regrow stock := by
  rcases lt_or_ge stock target.level with below | enough
  · have part := mul_le_of_le_one_left (sub_nonneg.mpr (le_of_lt below))
      (sub_le_self 1 regular.rate.1)
    rw [regrow_of_lt below]
    linarith
  · exact le_of_eq (regrow_of_le enough).symm

theorem regrow_le (below : stock ≤ target.level) : target.regrow stock ≤ target.level := by
  rcases eq_or_lt_of_le below with rfl | below
  · exact le_of_eq (regrow_of_le (le_refl _))
  · rw [regrow_of_lt below]
    exact sub_le_self _ (mul_nonneg (sub_nonneg.mpr regular.rate.2)
      (sub_nonneg.mpr (le_of_lt below)))

theorem regrow_mono (grown : stock ≤ more) : target.regrow stock ≤ target.regrow more := by
  rcases lt_or_ge more target.level with below | enough
  · rw [regrow_of_lt below, regrow_of_lt (lt_of_le_of_lt grown below)]
    exact sub_le_sub_left (mul_le_mul_of_nonneg_left (sub_le_sub_left grown _)
      (sub_nonneg.mpr regular.rate.2)) _
  · rw [regrow_of_le enough]
    rcases le_total stock target.level with below | full
    · exact le_trans (regular.regrow_le below) enough
    · rwa [regrow_of_le full]

/-- From nothing a round of growth gives that part of the target, and from more no less. -/
theorem rate_mul_level_le (stock_nonneg : 0 ≤ stock) :
    target.rate * target.level ≤ target.regrow stock :=
  calc target.rate * target.level ≤ target.regrow 0 := by
        rcases eq_or_lt_of_le regular.level with empty | below
        · rw [← empty, mul_zero]
          exact regular.le_regrow
        · rw [regrow_of_lt below]
          exact le_of_eq (by ring)
    _ ≤ target.regrow stock := regular.regrow_mono stock_nonneg

/-- Rounds of growth alone leave a power of the rest of what a stock lacks. -/
theorem iterate_regrow (below : stock < target.level) (rounds : ℕ) :
    target.regrow^[rounds] stock =
      target.level - (1 - target.rate) ^ rounds * (target.level - stock) := by
  induction rounds with
  | zero => simp
  | succ rounds ih =>
    have gap : 0 ≤ (1 - target.rate) ^ rounds * (target.level - stock) :=
      mul_nonneg (pow_nonneg (sub_nonneg.mpr regular.rate.2) rounds)
        (sub_nonneg.mpr (le_of_lt below))
    rw [Function.iterate_succ_apply', ih, pow_succ]
    -- A stock that has come to its target already lacks nothing, and stays there.
    rcases eq_or_lt_of_le gap with full | lacks
    · rw [mul_right_comm, ← full, zero_mul, sub_zero]
      exact regrow_of_le (le_refl _)
    · rw [regrow_of_lt (by linarith)]
      ring

end Regular

end Target

namespace Economy

variable {economy : Economy ℝ} {replenisher : Replenisher ℝ} {good : Good} {target : Target ℝ}

theorem getElem_stocks_replenished :
    (economy.replenished replenisher).stocks[good] =
      (replenisher.target? good).elim economy.stocks[good] fun target =>
        target.regrow economy.stocks[good] :=
  Replenisher.getElem_replenish _ _ _

theorem getElem_stocks_iterate_replenished (grows : replenisher.target? good = some target)
    (rounds : ℕ) :
    ((·.replenished replenisher)^[rounds] economy).stocks[good] =
      target.regrow^[rounds] economy.stocks[good] := by
  induction rounds with
  | zero => rfl
  | succ rounds ih =>
    rw [Function.iterate_succ_apply', Function.iterate_succ_apply', getElem_stocks_replenished,
      grows, Option.elim_some, ih]

end Economy

/-- How stocks grow back toward their targets. -/
structure Replenisher.Renews (replenisher : Replenisher ℝ)
    (targets : OrderedMap Good (Target ℝ)) : Prop where
  /-- No stock is lowered. -/
  raises : ∀ (economy : Economy ℝ) (good : Good),
    economy.stocks[good] ≤ (economy.replenished replenisher).stocks[good]
  /-- Only what was below a target is changed, and it does not pass the target. -/
  within : ∀ (economy : Economy ℝ) (good : Good),
    (economy.replenished replenisher).stocks[good] ≠ economy.stocks[good] →
      ∃ target, (good, target) ∈ targets.entries ∧ economy.stocks[good] < target.level ∧
        (economy.replenished replenisher).stocks[good] ≤ target.level
  /-- Who had more has no less afterwards. -/
  ordered : ∀ (scarce ample : Economy ℝ) (good : Good),
    scarce.stocks[good] ≤ ample.stocks[good] →
      (scarce.replenished replenisher).stocks[good] ≤ (ample.replenished replenisher).stocks[good]
  /-- What is lacking after some rounds of growth alone. -/
  rounds : ∀ entry ∈ targets.entries, ∀ economy : Economy ℝ,
    economy.stocks[entry.1] < entry.2.level → ∀ rounds : ℕ,
      ((·.replenished replenisher)^[rounds] economy).stocks[entry.1] =
        entry.2.level - (1 - entry.2.rate) ^ rounds * (entry.2.level - economy.stocks[entry.1])

namespace Replenisher

variable {targets : OrderedMap Good (Target ℝ)}

theorem target?_renewable_eq_some_iff {good : Good} {target : Target ℝ} :
    (renewable targets).target? good = some target ↔ (good, target) ∈ targets.entries :=
  OrderedMap.find?_eq_some_iff _ _ _

/-- A good grows toward its target, or it has none and is left as it is. -/
theorem grows_or_stays (targets : OrderedMap Good (Target ℝ)) (good : Good) :
    (∃ target, (good, target) ∈ targets.entries ∧ ∀ economy : Economy ℝ,
      (economy.replenished (.renewable targets)).stocks[good] =
        target.regrow economy.stocks[good]) ∨
      ∀ economy : Economy ℝ,
        (economy.replenished (.renewable targets)).stocks[good] = economy.stocks[good] := by
  cases grows : (renewable targets).target? good with
  | none =>
    right
    intro economy
    rw [Economy.getElem_stocks_replenished, grows, Option.elim_none]
  | some target =>
    left
    refine ⟨target, target?_renewable_eq_some_iff.mp grows, fun economy => ?_⟩
    rw [Economy.getElem_stocks_replenished, grows, Option.elim_some]

theorem renews (regular : ∀ entry ∈ targets.entries, entry.2.Regular) :
    (renewable targets).Renews targets where
  raises economy good := by
    rcases grows_or_stays targets good with ⟨target, member, grows⟩ | stays
    · rw [grows]
      exact (regular _ member).le_regrow
    · rw [stays]
  within economy good changed := by
    rcases grows_or_stays targets good with ⟨target, member, grows⟩ | stays
    · rw [grows] at changed ⊢
      have below : economy.stocks[good] < target.level :=
        not_le.mp fun enough => changed (Target.regrow_of_le enough)
      exact ⟨target, member, below, (regular _ member).regrow_le (le_of_lt below)⟩
    · exact absurd (stays economy) changed
  ordered scarce ample good more := by
    rcases grows_or_stays targets good with ⟨target, member, grows⟩ | stays
    · rw [grows, grows]
      exact (regular _ member).regrow_mono more
    · rwa [stays, stays]
  rounds entry member economy below rounds := by
    rw [Economy.getElem_stocks_iterate_replenished (target?_renewable_eq_some_iff.mpr member)]
    exact (regular entry member).iterate_regrow below rounds

end Replenisher

/-- Whatever a tick takes of a good that grows back, its last phases leave a part of the target. -/
theorem Economy.NonNegative.level_ticked {economy : Economy ℝ} {rules : ExactRules}
    {catalog : Catalog ℝ} {decay : Table Good ℝ} {replenisher : Replenisher ℝ} {days : ℝ}
    (nonneg : economy.NonNegative) (safe : rules.Safe) (valid : catalog.Valid) {good : Good}
    (decays : decay[good] ≤ 1) {target : Target ℝ}
    (grows : replenisher.target? good = some target) (regular : target.Regular) :
    target.rate * target.level ≤
      (economy.ticked rules catalog decay replenisher days).stocks[good] := by
  have left : 0 ≤ ((economy.produced rules catalog).decayed decay).stocks[good] := by
    rw [getElem_stocks_decayed]
    exact mul_nonneg (nonneg.stocks_produced safe valid good) (sub_nonneg.mpr decays)
  rw [getElem_stocks_ticked, harvested, getElem_stocks_replenished, grows]
  exact le_max_of_le_right (regular.rate_mul_level_le left)

namespace World

variable {world : World ℝ} {rules : ExactRules} {lengths : List (Given ℝ)}

/-- Ticks of any length above zero leave that part of the target, whatever came before the last. -/
theorem level_of_laps {replenisher : Replenisher ℝ} {economy after : Economy ℝ}
    (denotes : world.rules.Denotes rules) (safe : rules.Safe) (valid : world.catalog.Valid)
    (nonneg : economy.NonNegative)
    (forwards : ∀ given ∈ lengths, ∃ days, 0 < days ∧ given.Denotes days)
    (laps : (world.laps replenisher lengths economy).Reaches after) (ticked : lengths ≠ [])
    {good : Good} (decays : world.decay[good] ≤ 1) {target : Target ℝ}
    (grows : replenisher.target? good = some target) (regular : target.Regular) :
    target.rate * target.level ≤ after.stocks[good] := by
  have levels := holds_of_laps (motive := fun count current =>
    current.NonNegative ∧ (0 < count → target.rate * target.level ≤ current.stocks[good]))
    denotes forwards laps ⟨nonneg, by simp⟩ ?_
  · exact levels.2 (List.length_pos_iff.mpr ticked)
  · intro count current days _ held
    exact ⟨held.1.ticked safe valid, fun _ => held.1.level_ticked safe valid decays grows regular⟩

/-- Renewable stocks have a level that no demand takes them below, and nothing is taken of them to
keep it: after every tick a good that grows back is there to the part of its target that one round
of growth recovers. -/
theorem renewable_stocks_keep_level (denotes : world.rules.Denotes rules) (safe : rules.Safe)
    (decays : ∀ good : Good, world.decay[good] ≤ 1) (checked : world.catalog.check = .ok ())
    (indexed : world.Indexed)
    (forwards : ∀ given ∈ lengths, ∃ days, 0 < days ∧ given.Denotes days) :
    (0 ≤ rules.exponent → (world.run lengths).completes = true) ∧
      ∀ site ∈ world.sites.values, site.economy.NonNegative →
        ∀ targets, site.replenisher = .renewable targets →
          (∀ entry ∈ targets.entries, entry.2.Regular) →
            site.replenisher.Renews targets ∧
              ∀ reached, (world.run lengths).Reaches reached → ∃ economy,
                reached.site site.id = .ok { site with economy } ∧
                  (lengths ≠ [] → ∀ entry ∈ targets.entries,
                    entry.2.rate * entry.2.level ≤ economy.stocks[entry.1]) := by
  have valid := Catalog.check_eq_ok_iff.mp checked
  constructor
  · intro exponent
    obtain ⟨reached, ran⟩ := exists_reaches_run denotes safe exponent valid indexed
      fun given member => (forwards given member).imp fun _ days => ⟨le_of_lt days.1, days.2⟩
    exact Outcome.completes_iff_exists_reaches.mpr ⟨reached, ran⟩
  · intro site present nonneg targets renewable regular
    rw [renewable]
    refine ⟨Replenisher.renews regular, ?_⟩
    intro reached ran
    obtain ⟨economy, laps, ended⟩ := indexed.reaches_laps ran present
    refine ⟨economy, renewable ▸ ended, ?_⟩
    intro ticked entry member
    have grows : site.replenisher.target? entry.1 = some entry.2 := by
      rw [renewable]
      exact Replenisher.target?_renewable_eq_some_iff.mpr member
    exact level_of_laps denotes safe valid nonneg forwards laps ticked (decays entry.1) grows
      (regular entry member)

section mills

/-- Wheat that grows back toward fifty, by half of what is lacking. -/
noncomputable def wheatFields : OrderedMap Good (Target ℝ) :=
  ⟨[(.wheat, ⟨(50 : Nat), 1 / (2 : Nat)⟩)], List.nodup_singleton Good.wheat⟩

/-- The mill whose wheat grows back. -/
noncomputable def southMill : Site ℝ :=
  ⟨.ofText "south", .text "South", .mill, .renewable wheatFields⟩

theorem southMill_mem_mills : southMill ∈ mills.sites.values := by
  simp [mills, OrderedMap.values, southMill, wheatFields]

theorem wheatFields_regular : ∀ entry ∈ wheatFields.entries, entry.2.Regular := by
  intro entry member
  obtain rfl := List.mem_singleton.mp member
  exact ⟨by norm_num, by norm_num⟩

theorem renewable_stocks_keep_level_mills :
    ∃ reached economy, (mills.run [.whole 30, .real (1 / 2)]).Reaches reached ∧
      reached.site southMill.id = .ok { southMill with economy } ∧
      25 ≤ economy.stocks[Good.wheat] ∧ southMill.replenisher.Renews wheatFields := by
  obtain ⟨completes, levels⟩ := renewable_stocks_keep_level (Rules.ofExact_denotes _)
    ExactRules.standard_admissible.safe (fun good => by norm_num [mills]) Catalog.check_mill
    mills_indexed month_and_half_forwards
  obtain ⟨reached, ran⟩ := Outcome.completes_iff_exists_reaches.mp
    (completes ExactRules.standard_exponent_nonneg)
  obtain ⟨renews, ends⟩ := levels southMill southMill_mem_mills
    (Economy.mill_sound.nonNegative ExactRules.standard_admissible) wheatFields rfl
    wheatFields_regular
  obtain ⟨economy, ended, level⟩ := ends reached ran
  have wheat := level (List.cons_ne_nil _ _) _ (List.mem_singleton_self _)
  refine ⟨reached, economy, ran, ended, ?_, renews⟩
  norm_num at wheat
  exact wheat

end mills

end World

end Settlement
