/-
**The configuration and the plan of a run** (`bootsmith-core`).
-/

import Bootsmith.Library.Text

namespace Bootsmith.Core

open Bootsmith.Library

inductive BootMode
  | hybrid
  | windows
  | windowsNtXp
  | windows2000
  | isolinuxLinux
  | uefiOnly
  deriving DecidableEq, Repr

/-- What the user asked for; `auto` inspects the ISO. -/
inductive ModeRequest
  | auto
  | windows
  | windowsNtXp
  | windows2000
  | isolinuxLinux
  | hybrid
  | uefiOnly
  deriving DecidableEq, Repr

structure UnattendedConfig where
  productKey : Option Text
  fullName : Text
  organization : Text
  computerName : Text
  adminPassword : Option Text
  timezone : Option Nat

structure Config where
  isoPath : Text
  devicePath : Text
  mode : ModeRequest
  label : Option Text
  dryRun : Bool
  force : Bool
  unattended : Option UnattendedConfig
  ahciDriverDir : Option Text

structure WritePlan where
  isoPath : Text
  isoBytes : Nat
  mode : BootMode
  label : Text
  deriving DecidableEq, Repr

end Bootsmith.Core
