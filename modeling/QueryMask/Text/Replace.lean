/-! Replacing every occurrence of a word in a text. -/

namespace QueryMask

/-- Replaces the occurrences of `word :: more`, found from left to right, that do not overlap. -/
def replaceWord (word : Char) (more replacement : List Char) (text : List Char) : List Char :=
  match text with
  | [] => []
  | c :: rest =>
    if (word :: more).isPrefixOf (c :: rest) then
      replacement ++ replaceWord word more replacement (rest.drop more.length)
    else c :: replaceWord word more replacement rest
termination_by text.length
decreasing_by
  · simp only [List.length_drop, List.length_cons]
    omega
  · simp

end QueryMask
