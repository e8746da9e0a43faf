import Mathlib.Data.List.Induction
import SwitchTrade.Coordinator.LaunchOrder

/-!
# Crash safety

The two files are written one after the other, either write may raise, and the process may
stop between them, also during a recovery. Whatever the files hold then, the next start
returns and loads a record some command had made, with a pending outcome become interrupted;
a run whose verified cleanup is not on disk is loaded for recovery and every start is refused
until it is, and a run whose verified cleanup is on disk refuses none.
-/

namespace SwitchTrade.Coordinator

open Transition

variable {py : Stdlib}

/-- The host after a sequence of steps on an empty root. -/
def plays (py : Stdlib) (labels : List Label) : Option Host :=
  System.play (Host.step py) System.Free .empty labels

/-- A command of the sequence left this record in memory. -/
def Visits (py : Stdlib) (labels : List Label) (q : Record) : Prop :=
  ∃ before c clock u, before ++ [.command c clock] <+: labels ∧
    plays py (before ++ [.command c clock]) = some u ∧ u.current = some q

theorem Visits.more {labels more : List Label} {q : Record} (h : Visits py labels q) :
    Visits py (labels ++ more) q := by
  obtain ⟨before, c, clock, u, hpre, hp, hu⟩ := h
  exact ⟨before, c, clock, u, hpre.trans (List.prefix_append _ _), hp, hu⟩

/-- The identity, the ownership and the outcome of a record, a pending outcome perhaps
become interrupted. -/
structure Restored (q r : Record) : Prop where
  runId : r.runId = q.runId
  identity : r.identity = q.identity
  ownership : r.ownership = q.ownership
  functional : r.functional = q.functional ∨
    q.functional.status = .pending ∧ r.functional = .interrupted

theorem Restored.refl (q : Record) : Restored q q := ⟨rfl, rfl, rfl, .inl rfl⟩

theorem Restored.recover {q r : Record} {event utc : String} (h : Restored q r) :
    Restored q (r.recover.stamp event utc) := by
  refine ⟨h.runId, h.identity, h.ownership, ?_⟩
  show (r.recover.functional = q.functional) ∨ _ ∧ r.recover.functional = _
  unfold Record.recover
  by_cases hp : r.functional.status = .pending
  · rw [if_pos hp]
    rcases h.functional with hf | ⟨-, hf⟩
    · rw [hf] at hp
      exact .inr ⟨hp, rfl⟩
    · rw [hf] at hp
      cases hp
  · rw [if_neg hp]
    exact h.functional

/-- A run whose start has returned: its record is on disk; while the disk does not know it
settled the pointer names it, and no other run is in memory. -/
structure Live (runId : RunId) (h : Host) : Prop where
  pointed : ∃ d, h.disk.records runId = some d ∧
    (d.settled = false → h.disk.active = some runId) ∧
    ∀ r, h.current = some r → r.runId ≠ runId → d.settled = true
  memory : ∀ r, h.current = some r → r.runId = runId → r.settled = false →
    h.disk.active = some runId

theorem Change.live {G : Host → Label → Prop} {h t : Host} {i : Label} {runId : RunId}
    (hr : (system py).Reachable G h) (hc : Change py h i t) (hl : Live runId h) :
    Live runId t := by
  obtain ⟨⟨e, he, hpointed, hother⟩, hmem⟩ := hl
  cases hc with
  | quiet d release current c clock => exact ⟨⟨e, he, hpointed, hother⟩, hmem⟩
  | residue d release r r' runId' o clock hid hres =>
    refine ⟨⟨e, he, hpointed, ?_⟩, ?_⟩
    · intro r₁ hcur hne
      cases hcur
      exact hother r rfl (by rw [← hres.runId]; exact hne)
    · intro r₁ hcur hid' _
      cases hcur
      exact hmem r rfl (by rw [← hres.runId]; exact hid') (residue_unsettled hres)
  | start d release current c clock mode adapter usb runId' hg hn =>
    have hactive := hasCleanupGuard_false hg
    have hset : e.settled = true := by
      by_contra hu
      have ha := hpointed (eq_false_of_ne_true hu)
      rw [hactive] at ha
      cases ha
    refine ⟨⟨e, he, hpointed, fun _ _ _ => hset⟩, ?_⟩
    intro r₁ hcur hid' _
    cases hcur
    rw [show runId' = runId from hid'] at hn
    rw [hn] at he
    cases he
  | edit d release r r' c clock event hedit =>
    refine ⟨⟨e, he, hpointed, ?_⟩, ?_⟩
    · intro r₁ hcur hne
      cases hcur
      exact hother r rfl (by rw [← hedit.runId]; exact hne)
    · intro r₁ hcur hid' _
      cases hcur
      have hsame : r.runId = runId := by
        rw [← hedit.runId]
        exact hid'
      exact hmem r rfl hsame hedit.unsettled
  | record d release r recovering =>
    by_cases hk : runId = r.runId
    · subst hk
      refine ⟨⟨r, Function.update_self .., hmem r rfl rfl, ?_⟩, hmem⟩
      intro r₁ hcur hne
      cases hcur
      exact absurd rfl hne
    · have hrec : (d.writeRecord r).records runId = some e := by
        show Function.update d.records r.runId (some r) runId = some e
        rw [Function.update_of_ne hk]
        exact he
      exact ⟨⟨e, hrec, hpointed, hother⟩, hmem⟩
  | pointer d release r recovering =>
    have hrec := (reachable_filed hr).written release r recovering rfl
    by_cases hk : r.runId = runId
    · have hactive : r.settled = false → (d.writePointer r).active = some runId := by
        intro hu
        simp [Disk.writePointer, hu, hk]
      rw [hk] at hrec
      have her : e = r := Option.some.inj (he.symm.trans hrec)
      refine ⟨⟨e, he, by rw [her]; exact hactive, hother⟩, ?_⟩
      intro r₁ hcur _ hu
      cases hcur
      exact hactive hu
    · have hset := hother r rfl hk
      refine ⟨⟨e, he, ?_, hother⟩, ?_⟩
      · intro hu
        rw [hset] at hu
        cases hu
      · intro r₁ hcur hid' _
        cases hcur
        exact absurd hid' hk
  | recordRaises d release current => exact ⟨⟨e, he, hpointed, hother⟩, hmem⟩
  | pointerRaises d release current => exact ⟨⟨e, he, hpointed, hother⟩, hmem⟩
  | ends d process i hi =>
    exact ⟨⟨e, he, hpointed, fun _ hcur => (by cases hcur)⟩, fun _ hcur => (by cases hcur)⟩
  | bootIdle d release release' utc hn =>
    exact ⟨⟨e, he, hpointed, fun _ hcur => (by cases hcur)⟩, fun _ hcur => (by cases hcur)⟩
  | bootSettled d release release' utc runId' r ha hrec hid hset =>
    have heset : e.settled = true := by
      by_contra hu
      have ha' := hpointed (eq_false_of_ne_true hu)
      rw [ha] at ha'
      cases ha'
      have her : e = r := Option.some.inj (he.symm.trans hrec)
      rw [her] at hu
      exact hu hset
    refine ⟨⟨e, he, ?_, fun _ _ _ => heset⟩, ?_⟩
    · intro hu
      rw [heset] at hu
      cases hu
    · intro r₁ hcur _ hu
      cases hcur
      rw [hset] at hu
      cases hu
  | bootRecover d release release' utc runId' r ha hrec hid hset =>
    refine ⟨⟨e, he, hpointed, ?_⟩, ?_⟩
    · intro r₁ hcur hne
      cases hcur
      by_contra hu
      have ha' := hpointed (eq_false_of_ne_true hu)
      rw [ha] at ha'
      cases ha'
      exact hne hid
    · intro r₁ hcur hid' _
      cases hcur
      rw [ha, ← hid]
      exact congrArg some hid'

/-- A run whose verified cleanup is on disk, and in memory if the run is there. -/
structure Done (runId : RunId) (h : Host) : Prop where
  recorded : ∃ d, h.disk.records runId = some d ∧ d.settled = true
  memory : ∀ r, h.current = some r → r.runId = runId → r.settled = true

theorem Change.done {h t : Host} {i : Label} {runId : RunId} (hc : Change py h i t)
    (hd : Done runId h) : Done runId t := by
  obtain ⟨⟨e, he, hset⟩, hmem⟩ := hd
  cases hc with
  | quiet d release current c clock => exact ⟨⟨e, he, hset⟩, hmem⟩
  | residue d release r r' runId' o clock hid hres =>
    refine ⟨⟨e, he, hset⟩, ?_⟩
    intro r₁ hcur hid'
    cases hcur
    have hs := hmem r rfl (by rw [← hres.runId]; exact hid')
    rw [residue_unsettled hres] at hs
    cases hs
  | start d release current c clock mode adapter usb runId' hg hn =>
    refine ⟨⟨e, he, hset⟩, ?_⟩
    intro r₁ hcur hid'
    cases hcur
    rw [show runId' = runId from hid'] at hn
    rw [hn] at he
    cases he
  | edit d release r r' c clock event hedit =>
    refine ⟨⟨e, he, hset⟩, ?_⟩
    intro r₁ hcur hid'
    cases hcur
    have hs := hmem r rfl (by rw [← hedit.runId]; exact hid')
    rw [hedit.unsettled] at hs
    cases hs
  | record d release r recovering =>
    refine ⟨?_, hmem⟩
    by_cases hk : runId = r.runId
    · subst hk
      exact ⟨r, Function.update_self .., hmem r rfl rfl⟩
    · refine ⟨e, ?_, hset⟩
      show Function.update d.records r.runId (some r) runId = some e
      rw [Function.update_of_ne hk]
      exact he
  | pointer d release r recovering => exact ⟨⟨e, he, hset⟩, hmem⟩
  | recordRaises d release current => exact ⟨⟨e, he, hset⟩, hmem⟩
  | pointerRaises d release current => exact ⟨⟨e, he, hset⟩, hmem⟩
  | ends d process i hi => exact ⟨⟨e, he, hset⟩, fun _ hcur => (by cases hcur)⟩
  | bootIdle d release release' utc hn => exact ⟨⟨e, he, hset⟩, fun _ hcur => (by cases hcur)⟩
  | bootSettled d release release' utc runId' r ha hrec hid hs =>
    refine ⟨⟨e, he, hset⟩, ?_⟩
    intro r₁ hcur _
    cases hcur
    exact hs
  | bootRecover d release release' utc runId' r ha hrec hid hs =>
    refine ⟨⟨e, he, hset⟩, ?_⟩
    intro r₁ hcur hid'
    cases hcur
    have hk : runId' = runId := by
      rw [← hid]
      exact hid'
    subst hk
    have her : e = r := Option.some.inj (he.symm.trans hrec)
    rw [her, hs] at hset
    cases hset

/-- A done run that the pointer does not name either. -/
structure Released (runId : RunId) (h : Host) : Prop extends Done runId h where
  unpointed : h.disk.active ≠ some runId

/-- The start of the run has returned: a `_persist` of the sequence wrote both its files. -/
def Returned (py : Stdlib) (labels : List Label) (runId : RunId) : Prop :=
  ∃ before u a, before ++ [.writePointer] <+: labels ∧
    plays py (before ++ [.writePointer]) = some u ∧ u.shows a ∧ a.runId = runId

end SwitchTrade.Coordinator
