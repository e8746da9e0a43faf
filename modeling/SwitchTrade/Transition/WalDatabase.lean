import Mathlib.Tactic.Common

/-!
# Databases with a write-ahead log

A database is a main file of pages and a log of frames, each a page with, in the last frame of a
transaction, the size of the database after it. What the database holds is the main file with the
committed frames applied in order; frames after the last commit do not count. The index of the log
holds nothing of its own.
-/

namespace WalDatabase

universe u

variable {Page : Type u}

/-- The pages of a file, from page 0 on. -/
abbrev Pages (Page : Type u) := Nat → Option Page

structure Frame (Page : Type u) where
  number : Nat
  image : Page
  commit : Option Nat
  deriving DecidableEq, Repr

/-- The frames up to the last commit. -/
def committed (log : List (Frame Page)) : List (Frame Page) :=
  (log.reverse.dropWhile fun frame => frame.commit.isNone).reverse

/-- A frame writes its page, and with its transaction sets the size. -/
def applyFrame (pages : Pages Page) (frame : Frame Page) : Pages Page :=
  let written : Pages Page := fun i => if i = frame.number then some frame.image else pages i
  match frame.commit with
  | none => written
  | some size => fun i => if i < size then written i else none

def replay (pages : Pages Page) (log : List (Frame Page)) : Pages Page :=
  (committed log).foldl applyFrame pages

/-- The files of a database: the main file, the log and whether there is an index. -/
structure Files (Page : Type u) where
  main : Option (Pages Page)
  wal : Option (List (Frame Page))
  shm : Bool

/-- What opening the database finds; nothing without a main file. -/
def content (files : Files Page) : Option (Pages Page) :=
  files.main.map fun pages => replay pages (files.wal.getD [])

variable {pages : Pages Page} {files : Files Page}

theorem replay_nil : replay pages [] = pages := rfl

theorem content_of_no_wal (h : files.wal = none) : content files = files.main := by
  rw [content, h]
  cases files.main with
  | none => rfl
  | some pages => exact congrArg some replay_nil

theorem content_of_no_main (h : files.main = none) : content files = none := by
  rw [content, h]
  rfl

end WalDatabase
