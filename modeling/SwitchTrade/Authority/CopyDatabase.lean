import SwitchTrade.Transition.Ends
import SwitchTrade.Transition.WalDatabase

/-!
# Backup and restore of the authority database

`copy_database` of `relay/authority.py`. SQLite is a parameter: what its integrity check says of the
pages of a database and which tables it finds. An oracle says of every operation whether it raises
or the process is cut off in it, and whether before its effect or after.
-/

namespace SwitchTrade.Authority

open WalDatabase InPlace

/-! ## The operations -/

/-- What `copy_database` raises of its own, and what an operation raises. -/
inductive CopyError where
  | valueError (text : String)
  | fileNotFound
  | databaseError (text : String)
  | operation
  deriving DecidableEq, Repr

/-- How a call ends that does not return. -/
inductive Stop where
  | raised (error : CopyError)
  | cutOff
  deriving DecidableEq, Repr

/-- The operations of `copy_database`, by their place in the source. -/
inductive CopySite where
  | isFile
  | mkdir
  | acquire
  | connectSource
  | connectTemporary
  | backup
  | validate
  | closeTemporary
  | closeSource
  | unlinkWal
  | unlinkShm
  | replace
  | unlinkTemporary
  | release
  deriving DecidableEq, Repr

/-- How an operation ends that does not return, and whether it had its effect. -/
structure CopyAnswer where
  stops : Option Stop
  done : Bool
  deriving DecidableEq, Repr

abbrev CopyOracle := CopySite → CopyAnswer

variable {Page : Type}

/-- What SQLite says of the pages of a database. -/
structure Sqlite (Page : Type) where
  integrityCheck : Pages Page → String
  tables : Pages Page → List String

/-- The two databases and the temporary file. -/
structure Disk (Page : Type) where
  source : Files Page
  destination : Files Page
  temporary : Option (Pages Page)

abbrev CopyCall (Page : Type) := EStateM Stop (Disk Page)

/-- An operation; one that stops may have had its effect. -/
def operate (o : CopyOracle) (site : CopySite) (effect : Disk Page → Disk Page := id) :
    CopyCall Page Unit :=
  match (o site).stops with
  | none => modify effect
  | some stop => do
    modify fun disk => if (o site).done then effect disk else disk
    throw stop

/-- `try: body finally: cleanup`. -/
def tryFinally (body cleanup : CopyCall Page Unit) : CopyCall Page Unit := fun disk =>
  match body disk with
  | .ok _ after => cleanup after
  | .error .cutOff after => .error .cutOff after
  | .error (.raised error) after =>
    match cleanup after with
    | .ok _ cleaned => .error (.raised error) cleaned
    | .error stop cleaned => .error stop cleaned

/-- The tables `_validate_database` requires. -/
def requiredTables : List String := ["rooms", "credentials", "commands", "events"]

/-- `_validate_database`. -/
def validateDatabase (sqlite : Sqlite Page) (pages : Pages Page) : Except Stop Unit :=
  if sqlite.integrityCheck pages ≠ "ok" then
    .error (.raised (.databaseError "authority database integrity check failed"))
  else if ¬ (requiredTables.all fun table => (sqlite.tables pages).contains table) then
    .error (.raised (.databaseError "authority database schema is incomplete"))
  else .ok ()

/-- `copy_database`, of the resolved paths. -/
def copyDatabase (o : CopyOracle) (sqlite : Sqlite Page) (sourcePath destinationPath : String) :
    CopyCall Page Unit := do
  raiseIf (sourcePath = destinationPath)
    (.raised (.valueError "source and destination databases must differ"))
  operate o .isFile
  let disk ← get
  raiseIf (disk.source.main.isNone) (.raised .fileNotFound)
  operate o .mkdir
  operate o .acquire
  tryFinally
    (tryFinally
      (do
        operate o .connectSource
        tryFinally
          (do
            operate o .connectTemporary
            tryFinally
              (do
                operate o .backup fun disk => { disk with temporary := content disk.source }
                operate o .validate
                let disk ← get
                check (validateDatabase sqlite (disk.temporary.getD fun _ => none)))
              (operate o .closeTemporary))
          (operate o .closeSource)
        operate o .unlinkWal fun disk =>
          { disk with destination := { disk.destination with wal := none } }
        operate o .unlinkShm fun disk =>
          { disk with destination := { disk.destination with shm := false } }
        operate o .replace fun disk =>
          { disk with
            destination := { disk.destination with main := disk.temporary }
            temporary := none })
      (operate o .unlinkTemporary fun disk => { disk with temporary := none }))
    (operate o .release)

/-! ## What a copy is to keep -/

/-- The validated content of the source. -/
def Snapshot (sqlite : Sqlite Page) (disk : Disk Page) (pages : Pages Page) : Prop :=
  content disk.source = some pages ∧ validateDatabase sqlite pages = .ok ()

/-- Opening the destination gives the snapshot. -/
def Copied (sqlite : Sqlite Page) (before after : Disk Page) : Prop :=
  ∃ pages, Snapshot sqlite before pages ∧ content after.destination = some pages

/-- Opening the destination gives what it gave before the call, or the snapshot. -/
def Intact (sqlite : Sqlite Page) (before after : Disk Page) : Prop :=
  content after.destination = content before.destination ∨ Copied sqlite before after

/-- A copy that returns has copied, and one that stops has done all or nothing. -/
def Atomic (o : CopyOracle) (sqlite : Sqlite Page) (sourcePath destinationPath : String)
    (before : Disk Page) : Prop :=
  Ends (copyDatabase o sqlite sourcePath destinationPath)
    (fun _ after => Copied sqlite before after) (fun _ after => Intact sqlite before after) before

/-- The main file of the destination has, without its log, what the destination held, or it has the
snapshot. -/
def MainAlone (sqlite : Sqlite Page) (disk : Disk Page) : Prop :=
  ∀ main, disk.destination.main = some main →
    content disk.destination = some main ∨ Snapshot sqlite disk main

/-- The call refuses before it touches the destination. -/
def Refuses (sqlite : Sqlite Page) (sourcePath destinationPath : String) (disk : Disk Page) :
    Prop :=
  sourcePath = destinationPath ∨ ∀ pages, ¬ Snapshot sqlite disk pages

/-! ## How the operations end -/

variable {o : CopyOracle} {sqlite : Sqlite Page} {sourcePath destinationPath : String}
  {before disk : Disk Page} {body cleanup : CopyCall Page Unit} {R G : Disk Page → Prop}

theorem operate_ends {site : CopySite} {effect : Disk Page → Disk Page}
    (hok : (o site).stops = none → R (effect disk)) (hbefore : G disk) (hafter : G (effect disk)) :
    Ends (operate o site effect) (fun _ after => R after) (fun _ after => G after) disk := by
  unfold operate
  cases hstop : (o site).stops with
  | none => exact Ends.modify (hok hstop)
  | some stop =>
    refine Ends.bind (Ends.modify (Ends.throw ?_))
    split
    · exact hafter
    · exact hbefore

theorem tryFinally_ends
    (hbody : Ends body (fun _ after => R after) (fun _ after => G after) disk)
    (hR : ∀ t, R t → Ends cleanup (fun _ after => R after) (fun _ after => G after) t)
    (hG : ∀ t, G t → Ends cleanup (fun _ after => G after) (fun _ after => G after) t) :
    Ends (tryFinally body cleanup) (fun _ after => R after) (fun _ after => G after) disk := by
  unfold Ends tryFinally EStateM.run
  cases hrun : body.run disk with
  | ok a after =>
    have hthen : Ends cleanup (fun _ after => R after) (fun _ after => G after) after :=
      hR after (hbody.of_ok hrun)
    have hbody : body disk = .ok a after := hrun
    simp only [hbody]
    exact hthen
  | error stop after =>
    have hafter : G after := hbody.of_error hrun
    have hbody : body disk = .error stop after := hrun
    simp only [hbody]
    cases stop with
    | cutOff => exact hafter
    | raised error =>
      have hthen := hG after hafter
      cases hclean : cleanup.run after with
      | ok a cleaned =>
        have hcleaned : cleanup after = .ok a cleaned := hclean
        simp only [hcleaned]
        exact hthen.of_ok hclean
      | error stop cleaned =>
        have hcleaned : cleanup after = .error stop cleaned := hclean
        simp only [hcleaned]
        exact hthen.of_error hclean

/-! ## Up to the first file that is deleted -/

/-- The call has not touched the databases yet. -/
def Untouched (before after : Disk Page) : Prop :=
  after.source = before.source ∧ after.destination = before.destination

/-- The temporary file holds the snapshot. -/
def Staged (sqlite : Sqlite Page) (before after : Disk Page) : Prop :=
  Untouched before after ∧ ∃ pages, Snapshot sqlite before pages ∧ after.temporary = some pages

theorem Untouched.intact {after : Disk Page} (h : Untouched before after) :
    Intact sqlite before after := .inl (by rw [h.2])

/-- An operation without an effect keeps what holds. -/
theorem operate_keeps {site : CopySite} (hR : R disk) (hRG : R disk → G disk) :
    Ends (operate o site) (fun _ after => R after) (fun _ after => G after) disk :=
  operate_ends (fun _ => hR) (hRG hR) (hRG hR)

theorem stage_ends (hsource : disk.source.main.isSome = true) (h : Untouched before disk) :
    Ends
      (do
        operate o .backup fun disk => { disk with temporary := content disk.source }
        operate o .validate
        let disk ← get
        check (validateDatabase sqlite (disk.temporary.getD fun _ => none)))
      (fun _ after => Staged sqlite before after) (fun _ after => Untouched before after)
      disk := by
  obtain ⟨main, hmain⟩ := Option.isSome_iff_exists.mp hsource
  have hcontent : ∃ pages, content disk.source = some pages := ⟨_, by rw [content, hmain]; rfl⟩
  obtain ⟨pages, hpages⟩ := hcontent
  have hfound : content before.source = some pages := by rw [← h.1, hpages]
  have hbackup : Untouched before { disk with temporary := content disk.source } := h
  refine (operate_ends (R := fun after => Untouched before after ∧ after.temporary = some pages)
    (fun _ => ⟨hbackup, hpages⟩) h hbackup).seq ?_
  rintro - after ⟨hafter, htemporary⟩
  refine (operate_ends (R := fun t => t = after) (fun _ => rfl) hafter hafter).seq ?_
  rintro - t rfl
  refine Ends.bind (Ends.get ?_)
  refine Ends.check ?_ fun _ _ => hafter
  intro a hvalid
  rw [htemporary] at hvalid
  exact ⟨hafter, pages, ⟨hfound, hvalid⟩, htemporary⟩

/-! ## Deleting and replacing -/

/-- The log of the destination is deleted. -/
structure Unlinked (before after : Disk Page) : Prop where
  main : after.destination.main = before.destination.main
  wal : after.destination.wal = none

theorem Unlinked.intact {after : Disk Page} (h : Unlinked before after)
    (hmain : MainAlone sqlite before) : Intact sqlite before after := by
  have hcontent : content after.destination = before.destination.main := by
    rw [content_of_no_wal h.wal, h.main]
  cases hold : before.destination.main with
  | none =>
    rw [hold] at hcontent
    exact .inl (by rw [hcontent, content_of_no_main hold])
  | some main =>
    rw [hold] at hcontent
    rcases hmain main hold with hsame | hsnapshot
    · exact .inl (by rw [hcontent, hsame])
    · exact .inr ⟨main, hsnapshot, hcontent⟩

theorem swap_ends (h : Staged sqlite before disk) (hmain : MainAlone sqlite before) :
    Ends
      (do
        operate o .unlinkWal fun disk =>
          { disk with destination := { disk.destination with wal := none } }
        operate o .unlinkShm fun disk =>
          { disk with destination := { disk.destination with shm := false } }
        operate o .replace fun disk =>
          { disk with
            destination := { disk.destination with main := disk.temporary }
            temporary := none })
      (fun _ after => Copied sqlite before after) (fun _ after => Intact sqlite before after)
      disk := by
  obtain ⟨huntouched, pages, hsnapshot, htemporary⟩ := h
  have hwal : Unlinked before
      { disk with destination := { disk.destination with wal := none } } :=
    ⟨by rw [← huntouched.2], rfl⟩
  refine (operate_ends (R := fun t => Unlinked before t ∧ t.temporary = some pages)
    (fun _ => ⟨hwal, htemporary⟩) huntouched.intact (hwal.intact hmain)).seq ?_
  rintro - t ⟨ht, htemp⟩
  have hshm : Unlinked before { t with destination := { t.destination with shm := false } } :=
    ⟨ht.main, ht.wal⟩
  refine (operate_ends (R := fun t => Unlinked before t ∧ t.temporary = some pages)
    (fun _ => ⟨hshm, htemp⟩) (ht.intact hmain) (hshm.intact hmain)).seq ?_
  rintro - u ⟨hu, htemp⟩
  have hcopied : Copied sqlite before
      { u with destination := { u.destination with main := u.temporary }, temporary := none } := by
    refine ⟨pages, hsnapshot, ?_⟩
    rw [content_of_no_wal]
    · exact htemp
    · exact hu.wal
  exact operate_ends (fun _ => hcopied) (hu.intact hmain) (.inr hcopied)

/-! ## The whole call -/

theorem Intact.refl : Intact sqlite before before := .inl rfl

theorem copyDatabase_ends
    (h : Refuses sqlite sourcePath destinationPath before ∨ MainAlone sqlite before) :
    Atomic o sqlite sourcePath destinationPath before := by
  unfold Atomic copyDatabase
  refine Ends.bind (Ends.raiseIf (fun hdiffers => ?_) fun _ => Intact.refl)
  have hsame : Untouched before before := ⟨rfl, rfl⟩
  refine (operate_keeps (R := fun t => t = before) rfl fun ht => ht ▸ Intact.refl).seq ?_
  rintro - t rfl
  refine Ends.bind (Ends.get ?_)
  refine Ends.bind (Ends.raiseIf (fun hfile => ?_) fun _ => Intact.refl)
  have hsource : t.source.main.isSome = true := by
    cases hmain : t.source.main with
    | none => exact absurd (by rw [hmain]; rfl) hfile
    | some main => rfl
  refine (operate_keeps (R := fun u => u = t) rfl fun hu => hu ▸ Intact.refl).seq ?_
  rintro - u rfl
  refine (operate_keeps (R := fun t => t = u) rfl fun ht => ht ▸ Intact.refl).seq ?_
  rintro - t rfl
  refine tryFinally_ends (R := Copied sqlite t) (G := Intact sqlite t) ?_
    (fun _ hu => operate_keeps hu .inr) (fun _ hu => operate_keeps hu id)
  refine tryFinally_ends ?_ (fun _ hu => operate_ends (fun _ => hu) (.inr hu) (.inr hu))
    (fun _ hu => operate_ends (fun _ => hu) hu hu)
  refine (operate_keeps (R := fun u => u = t) rfl fun hu => hu ▸ Intact.refl).seq ?_
  rintro - u rfl
  have hstaged : Ends
      (tryFinally
        (do
          operate o .connectTemporary
          tryFinally
            (do
              operate o .backup fun disk => { disk with temporary := content disk.source }
              operate o .validate
              let disk ← get
              check (validateDatabase sqlite (disk.temporary.getD fun _ => none)))
            (operate o .closeTemporary))
        (operate o .closeSource))
      (fun _ after => Staged sqlite u after) (fun _ after => Untouched u after) u := by
    refine tryFinally_ends ?_ (fun _ ht => operate_keeps ht fun hstaged => hstaged.1)
      (fun _ ht => operate_keeps ht id)
    refine (operate_keeps (R := fun t => t = u) rfl fun ht => ht ▸ hsame).seq ?_
    rintro - t rfl
    exact tryFinally_ends (stage_ends hsource hsame)
      (fun _ ht => operate_keeps ht fun hstaged => hstaged.1) (fun _ ht => operate_keeps ht id)
  refine (hstaged.mono (fun _ _ ht => ht) fun _ _ ht => ht.intact).seq ?_
  intro _ t ht
  -- A snapshot was taken, so the call did not refuse.
  have hmain : MainAlone sqlite u := by
    rcases h with (hpaths | hnone) | hmain
    · exact absurd hpaths hdiffers
    · obtain ⟨-, pages, hsnapshot, -⟩ := ht
      exact absurd hsnapshot (hnone pages)
    · exact hmain
  exact swap_ends ht hmain

/-! ## Where replacing raises -/

/-- Every operation returns but `os.replace`, which raises. -/
def replaceRaises : CopyOracle := fun site =>
  if site = .replace then ⟨some (.raised .operation), false⟩ else ⟨none, false⟩

theorem copyDatabase_replaceRaises {pages : Pages Page} (hdiffers : sourcePath ≠ destinationPath)
    (hsnapshot : Snapshot sqlite before pages) :
    (copyDatabase replaceRaises sqlite sourcePath destinationPath).run before =
      .error (.raised .operation) { before with
        destination := ⟨before.destination.main, none, false⟩
        temporary := none } := by
  obtain ⟨hcontent, hvalid⟩ := hsnapshot
  have hmain : before.source.main.isNone = false := by
    cases hmain : before.source.main with
    | none => rw [content_of_no_main hmain] at hcontent; cases hcontent
    | some main => rfl
  have hfine : ∀ site, site ≠ .replace → replaceRaises site = ⟨none, false⟩ := by
    intro site hsite
    exact if_neg hsite
  have hoperate : ∀ site effect (disk : Disk Page), site ≠ .replace →
      operate replaceRaises site effect disk = .ok () (effect disk) := by
    intro site effect disk hsite
    unfold operate
    rw [hfine site hsite]
    rfl
  have hreplace : ∀ effect (disk : Disk Page),
      operate replaceRaises .replace effect disk = .error (.raised .operation) disk := by
    intro effect disk
    rfl
  have hget : ∀ disk : Disk Page, (get : CopyCall Page (Disk Page)) disk = .ok disk disk :=
    fun _ => rfl
  simp [copyDatabase, raiseIf, hdiffers, hmain, EStateM.run, bind, EStateM.bind, tryFinally,
    hoperate, hreplace, hget, hcontent, check, hvalid, pure, EStateM.pure]

theorem intact_of_replaceRaises {pages : Pages Page} (hdiffers : sourcePath ≠ destinationPath)
    (hsnapshot : Snapshot sqlite before pages)
    (h : Atomic replaceRaises sqlite sourcePath destinationPath before) :
    MainAlone sqlite before := by
  intro main hmain
  have hintact := h.of_error (copyDatabase_replaceRaises hdiffers hsnapshot)
  have hcontent : content (⟨before.destination.main, none, false⟩ : Files Page) = some main := by
    rw [content_of_no_wal rfl, hmain]
  rcases hintact with hsame | ⟨pages, hcopied, hpages⟩
  · exact .inl (hsame.symm.trans hcontent)
  · have heq : main = pages := Option.some.inj (hcontent.symm.trans hpages)
    exact .inr (heq ▸ hcopied)

/-- The copy is atomic, wherever it is stopped, exactly if it refuses or the main file of the
destination does not need its log: the log is deleted before the main file is replaced. -/
theorem copyDatabase_atomic_iff (sqlite : Sqlite Page) (sourcePath destinationPath : String)
    (before : Disk Page) :
    (∀ o, Atomic o sqlite sourcePath destinationPath before) ↔
      Refuses sqlite sourcePath destinationPath before ∨ MainAlone sqlite before := by
  constructor
  · intro hatomic
    by_cases hpaths : sourcePath = destinationPath
    · exact .inl (.inl hpaths)
    · by_cases hsnapshot : ∃ pages, Snapshot sqlite before pages
      · obtain ⟨pages, hpages⟩ := hsnapshot
        exact .inr (intact_of_replaceRaises hpaths hpages (hatomic replaceRaises))
      · exact .inl (.inr fun pages hpages => hsnapshot ⟨pages, hpages⟩)
  · intro h o
    exact copyDatabase_ends h

/-- A source of one page 3, and a destination whose page 1 is 2 in a committed frame of its log. -/
def loggedDisk : Disk Nat where
  source := ⟨some fun i => if i = 0 then some 3 else none, none, false⟩
  destination := ⟨some fun i => if i = 0 then some 1 else none, some [⟨0, 2, some 1⟩], true⟩
  temporary := none

/-- Where replacing raises, the destination holds its page 1 and neither 2 nor 3. -/
theorem stopped_copy_loses_log :
    ¬ Atomic replaceRaises ⟨fun _ => "ok", fun _ => requiredTables⟩ "source.sqlite3"
      "authority.sqlite3" loggedDisk := by
  intro hatomic
  have hmain := @intact_of_replaceRaises Nat _ _ _ _ (fun i => if i = 0 then some 3 else none)
    (by decide) ⟨rfl, rfl⟩ hatomic
  rcases hmain _ rfl with hlogged | ⟨hsource, -⟩
  · have hpage := congrFun (Option.some.inj hlogged) 0
    revert hpage
    decide
  · have hpage := congrFun (Option.some.inj hsource) 0
    revert hpage
    decide

end SwitchTrade.Authority
