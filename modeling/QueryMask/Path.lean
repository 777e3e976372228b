import QueryMask.Text.Pieces

/-! Dotted paths: joining a segment in front, splitting at the dots, and dropping repeats. -/

namespace QueryMask

/-- A dotted path, such as `owner.address.city`. -/
abbrev Path := String

namespace Path

/-- The path that leads through `segment` and goes on as `sub`. -/
def join (segment sub : String) : Path := segment ++ "." ++ sub

def segments (path : Path) : List String := piecesOf '.' path

/-- The segments of a joined path are those of its two parts. -/
theorem segments_join (segment sub : String) :
    segments (join segment sub) = segments segment ++ segments sub := by
  simp [segments, piecesOf, join, pieces_append_cons]

/-- A text without a dot is its own only segment. -/
theorem segments_of_not_mem {segment : String} (h : '.' ∉ segment.toList) :
    segments segment = [segment] := by
  simp [segments, piecesOf, pieces_of_not_mem h]

def distinct (paths : List Path) : List Path := paths.eraseDups

end Path

end QueryMask
