import SymbolContext.Proofs.Text.Utf8
import SymbolContext.Proofs.Uri.File
import SymbolContext.Symbol.Payload

/-!
# From a path to its URI and back

The URI of a path reads as the path again, whatever characters it holds: escapes in the path are
escaped themselves, and two slashes in front of it start no authority. A relative path comes back
below the root.

* `unescape_filePathText`: the octets behind the path of a URI are those of `rooted`.
* `filePath_fileUri`: **a path is read back from its URI.**
* `path_uri_round_trip` adds that absolute paths are told apart by their URIs, and that locations in
  them survive the way to a place and back.
-/

namespace SymbolContext

namespace Path

/-- The path, below the root if it is relative. -/
def rooted (path : String) : String := if isAbsolute path then path else "/" ++ path

theorem rooted_of_isAbsolute {path : String} (h : isAbsolute path = true) : rooted path = path := by
  rw [rooted, if_pos h]

end Path

namespace Uri

/-- A slash stands for itself. -/
theorem unescape_slash (cs : List Char) :
    unescape ('/' :: cs) = String.utf8EncodeChar '/' ++ unescape cs :=
  unescape_cons (by decide) cs

theorem unescape_filePathText (path : String) :
    unescape (filePathText path) = Utf8.encode (Path.rooted path) := by
  unfold filePathText Path.rooted
  split
  · exact unescape_escapePath path
  · rw [unescape_slash, unescape_escapePath, Utf8.encode_append]
    rfl

/-- **A path is read back from its URI.** -/
theorem filePath_fileUri (path : String) : (fileUri path).filePath = Path.rooted path := by
  have htext : (fileUri path).path.toList = filePathText path := String.toList_ofList
  rw [filePath, htext, unescape_filePathText, Utf8.decodeLossy_encode]

end Uri

theorem Location.toPlace_eq (l : Location) : l.toPlace = .ok ⟨Uri.fileUri l.path, l.range⟩ := by
  rw [toPlace, Uri.ofPath_eq]
  rfl

theorem Place.toLocation_fileUri (path : String) (range : Range) :
    Place.toLocation ⟨Uri.fileUri path, range⟩ = ⟨Path.rooted path, range⟩ := by
  rw [toLocation, Uri.filePath_fileUri]

namespace Uri

/-- **The URI of a path leads back to it.** Every path has a URI, with the text that is made for it,
and it names the path, below the root if that is relative. So absolute paths with the same text of a
URI are the same, and a location in one is the same after the way to a place and back. -/
theorem path_uri_round_trip :
    (∀ path : String, ∃ uri, ofPath path = .ok uri ∧ uri.text = fileText path ∧
      uri.filePath = if Path.isAbsolute path then path else "/" ++ path) ∧
    (∀ p q : String, Path.isAbsolute p = true → Path.isAbsolute q = true →
      fileText p = fileText q → p = q) ∧
    (∀ l : Location, Path.isAbsolute l.path = true →
      ∃ place, l.toPlace = .ok place ∧ place.uri.text = l.uriText ∧ place.toLocation = l) := by
  refine ⟨fun path => ?_, fun p q hp hq h => fileText_injective hp hq h, fun l hl => ?_⟩
  · exact ⟨fileUri path, ofPath_eq path, fileUri_text path, filePath_fileUri path⟩
  · refine ⟨_, l.toPlace_eq, fileUri_text l.path, ?_⟩
    rw [Place.toLocation_fileUri, Path.rooted_of_isAbsolute hl]

/-- A path with two slashes in front, an escape, and characters that would end a path. -/
theorem path_uri_round_trip_slashes :
    let l : Location := ⟨"//h:1/%41 é#?", ⟨⟨0, 1⟩, ⟨2, 3⟩⟩⟩
    Path.isAbsolute l.path = true ∧
      l.uriText = "file:////h%3A1/%2541%20%C3%A9%23%3F" ∧
      (∃ place, l.toPlace = .ok place ∧ place.toLocation = l) ∧
      ∀ q, Path.isAbsolute q = true → fileText q = l.uriText → q = l.path := by
  intro l
  have habsolute : Path.isAbsolute l.path = true := by decide
  obtain ⟨-, hinjective, hlocation⟩ := path_uri_round_trip
  obtain ⟨place, hplace, -, hback⟩ := hlocation l habsolute
  refine ⟨habsolute, by decide +kernel, ⟨place, hplace, hback⟩, fun q hq htext => ?_⟩
  exact hinjective q l.path hq habsolute htext

end Uri

end SymbolContext
