import Mathlib
import MonkeySyntax.Proofs.Files
import MonkeySyntax.Proofs.Json.Objects
import MonkeySyntax.Proofs.Text.Encoding
import MonkeySyntax.Settings

/-!
# Saved settings

Settings are loaded from a file as they were saved to it, but for the level, which is taken in upper
case: `load_save`.
-/

namespace MonkeySyntax

/-! ### The text of settings -/

theorem Json.members_written {name text : Text} {found : Value} (writes : Writes text found)
    (rest : Text) :
    (members (skipSpace (Settings.written name text ++ rest))).outcome =
      behindMember (codePoints name, found) (skipSpace rest) := by
  have split : skipSpace (Settings.written name text ++ rest) =
      '"' :: (name.flatMap Json.writtenChar ++ '"' :: ':' :: ' ' :: (text ++ rest)) := by
    simp [Settings.written, writtenString, skipSpace]
  rw [split]
  refine members_eq (stringBody_written name) rfl ?_
  rw [(writes rest).1]
  exact (writes rest).2

namespace Settings

def members (settings : Settings) : List (RawText × Json.Value) := [
  (codePoints promptKey, .string (codePoints settings.prompt)),
  (codePoints filenameKey, .string (codePoints settings.filename)),
  (codePoints showFaceKey, .bool settings.showFace),
  (codePoints logLevelKey, .string (codePoints settings.logLevel))]


theorem value_toText (settings : Settings) :
    (Json.value settings.toText).outcome = .ok (.object settings.members, []) := by
  have split : settings.toText = '{' :: (
      written promptKey (Json.writtenString settings.prompt) ++ ',' :: (
      written filenameKey (Json.writtenString settings.filename) ++ ',' :: (
      written showFaceKey (if settings.showFace then "true".toList else "false".toList) ++ ',' :: (
      written logLevelKey (Json.writtenString settings.logLevel) ++ ['\n', '}'])))) := by
    simp [toText, joined]
  rw [split, Json.value_brace_of_name rfl, Json.members_written (Json.writes_string _)]
  show ((Json.members (Json.skipSpace _)).outcome.map _).map _ = _
  rw [Json.members_written (Json.writes_string _)]
  show (((Json.members (Json.skipSpace _)).outcome.map _).map _).map _ = _
  rw [Json.members_written (Json.writes_bool _)]
  show ((((Json.members (Json.skipSpace _)).outcome.map _).map _).map _).map _ = _
  rw [Json.members_written (Json.writes_string _)]
  rfl

theorem ofMembers_members (settings : Settings) :
    ofMembers settings.members =
      ({ settings with logLevel := upper settings.logLevel } : Settings).raw := by
  rw [raw, ← upperRaw_codePoints]
  rfl

theorem read_toText (settings : Settings) :
    Json.read settings.toText = .ok (.object settings.members) := by
  have whole : (Json.value (Json.skipSpace settings.toText)).outcome =
      .ok (.object settings.members, []) := settings.value_toText
  obtain ⟨_, found⟩ := Json.Reading.outcome_eq_ok whole
  have noMark : settings.toText.head? ≠ some '\ufeff' := nofun
  rw [Json.read, if_neg noMark, found]
  rfl

/-- There is no line ending to unify in the text of settings. -/
theorem return_not_mem_toText (settings : Settings) : '\r' ∉ settings.toText := by
  have strings (text : Text) : '\r' ∉ Json.writtenString text := fun member =>
    absurd (Json.isPrintableAscii_writtenString text _ member) (by decide)
  cases flag : settings.showFace <;> simp [toText, joined, written, strings, flag]

end Settings

theorem unifyLineEndings_of_not_mem {text : Text} (h : '\r' ∉ text) :
    unifyLineEndings text = text := by
  have unified := unifyLineEndings_append h []
  rwa [unifyLineEndings, List.append_nil] at unified

namespace Settings

theorem ofBytes_toText (settings : Settings) :
    ofBytes (Utf8.encode settings.toText) =
      .ok ({ settings with logLevel := upper settings.logLevel } : Settings).raw := by
  rw [ofBytes, Utf8.decode_eq_ok_iff.mpr rfl]
  dsimp only
  rw [unifyLineEndings_of_not_mem settings.return_not_mem_toText, read_toText]
  exact congrArg Except.ok settings.ofMembers_members

/-- Settings are loaded as they were saved, with the level in upper case. -/
theorem load_save {settings : Settings} {files after : FileTree} {path : Text}
    (saved : settings.save files path = (.ok (), after)) :
    load after path = .ok ({ settings with logLevel := upper settings.logLevel } : Settings).raw ∧
      (load after path = .ok settings.raw ↔ upper settings.logLevel = settings.logLevel) := by
  have loaded : load after path =
      .ok ({ settings with logLevel := upper settings.logLevel } : Settings).raw := by
    rw [load, FileTree.read_of_saveFile saved]
    exact settings.ofBytes_toText
  refine ⟨loaded, ?_⟩
  rw [loaded, Except.ok.injEq, raw_inj]
  constructor
  · exact fun same => congrArg logLevel same
  · intro same
    rw [same]

/-- Quotes, controls, line ends and a character beyond the basic plane come back, and the letter
whose upper case is two letters does not. -/
theorem load_save_of_controls :
    let settings : Settings :=
      { prompt := ['"', '\\', '\x00', '\x1f', '\x7f', '\r', '\n', '\u2028', '🐵']
        filename := []
        showFace := false
        logLevel := ['ß'] }
    let after := (settings.save .empty "a/b/s.json".toList).2
    settings.save .empty "a/b/s.json".toList = (.ok (), after) ∧
      load after "a/b/s.json".toList =
        .ok ({ settings with logLevel := ['S', 'S'] } : Settings).raw ∧
      load after "a/b/s.json".toList ≠ .ok settings.raw := by
  intro settings after
  have saved : settings.save .empty "a/b/s.json".toList = (.ok (), after) :=
    Prod.ext (by cbv) rfl
  have upperCase : upper ['ß'] = ['S', 'S'] := by decide +kernel
  obtain ⟨loaded, same⟩ := load_save saved
  rw [show settings.logLevel = ['ß'] from rfl, upperCase] at loaded
  exact ⟨saved, loaded, fun h => absurd (same.mp h) (by decide +kernel)⟩

end Settings

end MonkeySyntax
