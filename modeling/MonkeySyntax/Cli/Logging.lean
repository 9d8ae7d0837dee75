import MonkeySyntax.Log
import MonkeySyntax.Text.CodePoint

/-!
# Logging

Which records the command line logs, and where to. An unknown level stands for warnings;
`weightOf_eq_error_iff` says which names are refused.
-/

namespace MonkeySyntax.Cli

/-- The names of levels that can be asked for, in upper case, and the least weight that they log. -/
def levelNames : List (Text × Nat) := [
  ("CRITICAL".toList, 50), ("FATAL".toList, 50), ("ERROR".toList, 40), ("WARNING".toList, 30),
  ("WARN".toList, 30), ("INFO".toList, 20), ("DEBUG".toList, 10), ("NOTSET".toList, 0)]

/-- Names that do not stand for levels but for how log lines are laid out. -/
inductive Layout where
  | basic | styles
deriving DecidableEq

namespace Layout

def name : Layout → Text
  | basic => "BASIC_FORMAT".toList
  | styles => "_STYLES".toList

def message : Layout → Text
  | basic => "Unknown level: '%(levelname)s:%(name)s:%(message)s'".toList
  | styles =>
    "Level not an integer or a valid string: \x7b'%': (<class 'logging.PercentStyle'>, ".toList ++
      "'%(levelname)s:%(name)s:%(message)s'), '\x7b': (<class 'logging.StrFormatStyle'>, ".toList ++
      "'\x7blevelname\x7d:\x7bname\x7d:\x7bmessage\x7d'), ".toList ++
      "'$': (<class 'logging.StringTemplateStyle'>, ".toList ++
      "'$\x7blevelname\x7d:$\x7bname\x7d:$\x7bmessage\x7d')\x7d".toList

end Layout

/-- The least weight that is logged at a level, which may be written in any case. -/
def weightOf (level : RawText) : Except Layout Nat :=
  if upperRaw level = codePoints Layout.basic.name then .error .basic
  else if upperRaw level = codePoints Layout.styles.name then .error .styles
  else
    let known := (chars? (upperRaw level)).bind fun name => levelNames.lookup name
    .ok (known.getD Level.warning.weight)

theorem weightOf_eq_error_iff {level : RawText} {layout : Layout} :
    weightOf level = .error layout ↔ upperRaw level = codePoints layout.name := by
  have differ : codePoints Layout.styles.name ≠ codePoints Layout.basic.name := by decide
  unfold weightOf
  split
  · rename_i h
    cases layout <;> simp [h, differ.symm]
  · rename_i basic
    split
    · rename_i h
      cases layout <;> simp [h, differ]
    · rename_i styles
      cases layout <;> simp [basic, styles]

/-- Which records are logged, and the file that they go to instead of the error output. -/
structure Logging where
  weight : Nat
  file : Option Text := none

def Logging.admits (logging : Logging) (record : LogRecord) : Bool :=
  logging.weight ≤ record.level.weight

def logLine (time : Text) (record : LogRecord) : Text :=
  joined " - ".toList [time, record.logger, record.level.name, record.message] ++ ['\n']

end MonkeySyntax.Cli
