import SwitchTrade.Pk3.Record
import SwitchTrade.Transition.Fallible

/-!
# The tail of a party record

`frlgsim/stats.py`: the level and the stats of a Pokémon from its decrypted box record. The table of
base stats is a parameter; its entries are six bytes and one of the six growth rates. With such
entries every stat fits its two bytes, so the tail is built or left out, and nothing raises.
-/

namespace SwitchTrade.Pk3

def maxLevel : Nat := 100

def shedinja : Nat := 303

def deoxys : Nat := 410

inductive GrowthRate
  | mediumFast
  | erratic
  | fluctuating
  | mediumSlow
  | fast
  | slow
  deriving DecidableEq, Repr

/-- One entry of `BASE_STATS`. -/
structure BaseStats where
  hp : UInt8
  atk : UInt8
  df : UInt8
  spe : UInt8
  spa : UInt8
  spd : UInt8
  growth : GrowthRate
  deriving DecidableEq, Repr

/-- The curves of `_build_exp_tables`. -/
def GrowthRate.curve (growth : GrowthRate) (n : Int) : Int :=
  match growth with
  | .mediumFast => n ^ 3
  | .erratic =>
    if n ≤ 50 then (100 - n) * n ^ 3 / 50
    else if n ≤ 68 then (150 - n) * n ^ 3 / 100
    else if n ≤ 98 then (1911 - 10 * n) / 3 * n ^ 3 / 500
    else (160 - n) * n ^ 3 / 100
  | .fluctuating =>
    if n ≤ 15 then ((n + 1) / 3 + 24) * n ^ 3 / 50
    else if n ≤ 36 then (n + 14) * n ^ 3 / 50
    else (n / 2 + 32) * n ^ 3 / 50
  | .mediumSlow => 6 * n ^ 3 / 5 - 15 * n ^ 2 + 100 * n - 140
  | .fast => 4 * n ^ 3 / 5
  | .slow => 5 * n ^ 3 / 4

/-- `EXP_TABLES[growth][level]`; the levels 0 and 1 are fixed. -/
def expTable (growth : GrowthRate) (level : Nat) : Int :=
  if level < 2 then level else growth.curve level

/-- The loop of `level_from_exp`, with the rounds that are left to the highest level. -/
def levelLoop (growth : GrowthRate) (exp : Nat) : Nat → Nat → Nat
  | 0, level => level
  | left + 1, level =>
    if expTable growth level ≤ exp then levelLoop growth exp left (level + 1) else level

/-- `level_from_exp`. -/
def levelFromExp (growth : GrowthRate) (exp : Nat) : Nat := levelLoop growth exp maxLevel 1 - 1

/-- `NATURE_STAT_TABLE`. -/
def natureStatTable : List (List Int) := [
  [0, 0, 0, 0, 0], [1, -1, 0, 0, 0], [1, 0, -1, 0, 0], [1, 0, 0, -1, 0], [1, 0, 0, 0, -1],
  [-1, 1, 0, 0, 0], [0, 0, 0, 0, 0], [0, 1, -1, 0, 0], [0, 1, 0, -1, 0], [0, 1, 0, 0, -1],
  [-1, 0, 1, 0, 0], [0, -1, 1, 0, 0], [0, 0, 0, 0, 0], [0, 0, 1, -1, 0], [0, 0, 1, 0, -1],
  [-1, 0, 0, 1, 0], [0, -1, 0, 1, 0], [0, 0, -1, 1, 0], [0, 0, 0, 0, 0], [0, 0, 0, 1, -1],
  [-1, 0, 0, 0, 1], [0, -1, 0, 0, 1], [0, 0, -1, 0, 1], [0, 0, 0, -1, 1], [0, 0, 0, 0, 0]]

/-- `modify_stat_by_nature`. -/
def modifyStatByNature (nature value statIndex : Nat) : Nat :=
  let mod := (natureStatTable.getD nature []).getD statIndex 0
  if mod = 1 then value * 110 / 100 else if mod = -1 then value * 90 / 100 else value

/-- `_stat`. -/
def stat (base iv ev level : Nat) : Nat := (2 * base + iv + ev / 4) * level / 100 + 5

/-- `int(val).to_bytes(2, "little")`. -/
def toBytes2 (val : Nat) : Except String (List UInt8) :=
  if val < 256 ^ 2 then .ok (LittleEndian.toBytes 2 val) else .error "int too big to convert"

/-- The Attack forme's bases in place of Deoxys' own. -/
def baseOf (species : Nat) (base : BaseStats) : BaseStats :=
  if species = deoxys then
    { base with atk := 180, df := 20, spe := 150, spa := 180, spd := 20 }
  else base

/-- The two words of HP and the five stats. -/
def tailValues (canon : List UInt8) (base : BaseStats) : List Nat :=
  let sec := secure canon
  let growth := slice sec 0 12
  let evs := slice sec 24 36
  let misc := slice sec 36 48
  let species := field growth 0 2
  let exp := field growth 4 8
  let ev := fun i => (evs.getD i 0).toNat
  let ivWord := field misc 4 8
  let iv := fun i => (ivWord >>> (5 * i)) &&& 0x1F
  let nature := personality canon % 25
  let level := levelFromExp base.growth exp
  let hp := if species = shedinja then 1
    else (2 * base.hp.toNat + iv 0 + ev 0 / 4) * level / 100 + level + 10
  let nonhp := baseOf species base
  let value := fun (b : UInt8) i =>
    modifyStatByNature nature (stat b.toNat (iv i) (ev i) level) (i - 1)
  [hp, hp, value nonhp.atk 1, value nonhp.df 2, value nonhp.spe 3, value nonhp.spa 4,
    value nonhp.spd 5]

/-- `build_party_tail`. -/
def buildPartyTail (baseStats : Nat → Option BaseStats) (canon : List UInt8) :
    Except String (Option (List UInt8)) :=
  let growth := slice (secure canon) 0 12
  match baseStats (field growth 0 2) with
  | none => .ok none
  | some base =>
    let level := levelFromExp base.growth (field growth 4 8)
    match (tailValues canon base).mapM toBytes2 with
    | .error e => .error e
    | .ok words => .ok (some ([0, 0, 0, 0, UInt8.ofNat level, 0xFF] ++ words.flatten))

/-! ## Every value fits -/

theorem levelLoop_le (growth : GrowthRate) (exp left level : Nat) :
    levelLoop growth exp left level ≤ level + left := by
  induction left generalizing level with
  | zero => exact Nat.le_refl _
  | succ left ih =>
    rw [levelLoop]
    split
    · have hrest := ih (level + 1)
      omega
    · omega

theorem levelFromExp_le (growth : GrowthRate) (exp : Nat) : levelFromExp growth exp ≤ maxLevel := by
  have hloop := levelLoop_le growth exp maxLevel 1
  unfold levelFromExp
  omega

/-- A stat's sum before its constant. -/
theorem scaled_le {base iv ev level : Nat} (hbase : base < 256) (hiv : iv < 32) (hev : ev < 256)
    (hlevel : level ≤ maxLevel) : (2 * base + iv + ev / 4) * level / 100 ≤ 604 := by
  have hsum : 2 * base + iv + ev / 4 ≤ 604 := by omega
  have hmul : (2 * base + iv + ev / 4) * level ≤ 604 * 100 := Nat.mul_le_mul hsum hlevel
  omega

theorem modifyStatByNature_le (nature value statIndex : Nat) :
    modifyStatByNature nature value statIndex ≤ value * 110 / 100 := by
  unfold modifyStatByNature
  dsimp only
  split
  · exact Nat.le_refl _
  · split
    · omega
    · omega

theorem tailValues_lt (canon : List UInt8) (base : BaseStats) :
    ∀ val ∈ tailValues canon base, val < 256 ^ 2 := by
  have hlevel := levelFromExp_le base.growth (field (slice (secure canon) 0 12) 4 8)
  have hiv : ∀ n i : Nat, (n >>> (5 * i)) &&& 0x1F < 32 := by
    intro n i
    exact Nat.lt_of_le_of_lt Nat.and_le_right (by decide)
  have hvalue : ∀ (b : UInt8) (nature iv statIndex : Nat) (ev : UInt8) (level : Nat), iv < 32 →
      level ≤ maxLevel →
      modifyStatByNature nature (stat b.toNat iv ev.toNat level) statIndex < 256 ^ 2 := by
    intro b nature iv statIndex ev level hiv hlevel
    have hscaled := scaled_le b.toNat_lt hiv ev.toNat_lt hlevel
    have hmodified := modifyStatByNature_le nature (stat b.toNat iv ev.toNat level) statIndex
    unfold stat at hmodified ⊢
    omega
  have hhp := scaled_le base.hp.toNat_lt
    (hiv (field (slice (secure canon) 36 48) 4 8) 0)
    ((slice (secure canon) 24 36).getD 0 0).toNat_lt hlevel
  intro val hval
  unfold tailValues at hval
  dsimp only at hval
  unfold maxLevel at hlevel
  simp only [List.mem_cons, List.not_mem_nil, or_false] at hval
  have hhpValue : (if field (slice (secure canon) 0 12) 0 2 = shedinja then 1
      else (2 * base.hp.toNat + (field (slice (secure canon) 36 48) 4 8 >>> (5 * 0) &&& 0x1F) +
        ((slice (secure canon) 24 36).getD 0 0).toNat / 4) *
        levelFromExp base.growth (field (slice (secure canon) 0 12) 4 8) / 100 +
        levelFromExp base.growth (field (slice (secure canon) 0 12) 4 8) + 10) < 256 ^ 2 := by
    split
    · omega
    · omega
  rcases hval with rfl | rfl | rfl | rfl | rfl | rfl | rfl
  · exact hhpValue
  · exact hhpValue
  all_goals exact hvalue _ _ _ _ _ _ (hiv _ _) hlevel

/-- The tail is built whenever the species is in the table, and it is twenty bytes long. -/
theorem buildPartyTail_ok (baseStats : Nat → Option BaseStats) (canon : List UInt8) :
    ∃ tail, buildPartyTail baseStats canon = .ok tail ∧
      ∀ bytes, tail = some bytes → bytes.length = 20 := by
  unfold buildPartyTail
  dsimp only
  cases baseStats (field (slice (secure canon) 0 12) 0 2) with
  | none => exact ⟨none, rfl, fun _ h => by cases h⟩
  | some base =>
    have hwords : (tailValues canon base).mapM toBytes2 =
        .ok ((tailValues canon base).map (LittleEndian.toBytes 2)) := by
      apply Fallible.mapM_eq_ok_map
      intro val hval
      exact if_pos (tailValues_lt canon base val hval)
    dsimp only
    rw [hwords]
    refine ⟨_, rfl, ?_⟩
    rintro bytes ⟨⟩
    simp [tailValues, LittleEndian.length_toBytes]

end SwitchTrade.Pk3
