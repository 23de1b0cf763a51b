/-!
# Paths

Paths are texts whose parts are separated by slashes. Empty parts and parts that are a single dot
say nothing; two dots stand for the folder above.

    join "out" "a.txt" = "out/a.txt"        join "out" "/a" = "/a"
    parent "a//b/./c/" = "a//b"
    extension? "dir/list.JSON" = some "JSON"
-/

namespace Shorthand.Path

/-! ## Parts -/

/-- The parts that are not empty. -/
def steps (path : List Char) : List (List Char) := (path.splitOn '/').filter (· ≠ [])

/-- The parts that lead somewhere. -/
def parts (path : List Char) : List (List Char) :=
  (steps path).filter (· ≠ ['.'])

def isIdle (part : List Char) : Bool := part == [] || part == ['.']

/-- The path of the folder above, spelled as it is in the path itself: what stands before the last
part that leads somewhere, up to the part before. -/
def parent (path : List Char) : List Char :=
  let fromLast := (path.splitOn '/').reverse.dropWhile isIdle
  ['/'].intercalate (fromLast.tail.dropWhile isIdle).reverse

/-- The last part, unless it leads upwards. -/
def fileName? (path : List Char) : Option (List Char) :=
  match (parts path).getLast? with
  | some ['.', '.'] => none
  | name => name

/-- What follows the last dot of a name, unless nothing stands before that dot. -/
def extensionOf? (name : List Char) : Option (List Char) :=
  let after := (name.reverse.takeWhile (· ≠ '.')).reverse
  let stem := name.length - after.length
  if 2 ≤ stem then some after else none

/-- The extension of the file that a path names. -/
def extension? (path : String) : Option (List Char) := (fileName? path.toList).bind extensionOf?

/-! ## Joining -/

/-- The path of `second` seen from the folder `first`. -/
def join (first second : String) : String :=
  match second.toList with
  | '/' :: _ => second
  | _ =>
    match first.toList.getLast? with
    | none => second
    | some '/' => first ++ second
    | some _ => first ++ "/" ++ second

end Shorthand.Path
