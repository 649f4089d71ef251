import BoundedStore.Decimal.Tenths

/-!
# Staging reports

A report lists the files that are staged, with their lengths, and those that were skipped, with the reasons; its last
line sums up. Lengths and the word `skipped` end in the twelfth column, and the part of the capacity in use is a
percentage with one decimal place, computed in double precision.
-/

namespace BoundedStore

/-- Why a file was not staged. -/
inductive SkipReason where
  | noRoom
  | duplicateName
  | stated (text : String)
  deriving DecidableEq

def SkipReason.text : SkipReason → String
  | .noRoom => "no room"
  | .duplicateName => "duplicate name"
  | .stated text => text

/-- The outcome of a staging. -/
structure Report where
  staged : List (String × UInt64)
  skipped : List (String × SkipReason)
  used : UInt64
  capacity : UInt64

namespace Report

/-- The text moved to the right, so that it ends in the twelfth column. -/
def column (text : String) : String :=
  String.ofList (List.replicate (12 - text.length) ' ') ++ text

/-- The percentage of the capacity that is in use. -/
def percentage (r : Report) : Float :=
  if r.capacity = 0 then 0 else r.used.toFloat * 100 / r.capacity.toFloat

def stagedLine (entry : String × UInt64) : String := s!"{column (toString entry.2)}  {entry.1}\n"

def skippedLine (entry : String × SkipReason) : String :=
  column "skipped" ++ s!"  {entry.1} ({entry.2.text})\n"

def summaryLine (r : Report) : String :=
  s!"{r.staged.length} staged, {r.skipped.length} skipped, {r.used} of {r.capacity} bytes used " ++
    s!"({Decimal.tenths r.percentage}%)\n"

def text (r : Report) : String :=
  String.join (r.staged.map stagedLine) ++ String.join (r.skipped.map skippedLine) ++ r.summaryLine

end Report
end BoundedStore
