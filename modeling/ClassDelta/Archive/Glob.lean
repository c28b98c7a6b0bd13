/-!
# Path patterns

A `Glob` is a pattern for whole paths.  `?` stands for any character, `*` for
any run of characters, `[…]` and `[!…]` for one character inside or outside of
some ranges, and `**` as a whole component for any number of components.
Slashes are characters like any other to `?`, `*` and `[…]`.

`Glob.parse` reads a pattern or says where it goes wrong; `Glob.accepts` decides
whether a path fits a pattern.
-/

namespace ClassDelta

/-- One part of a pattern. -/
inductive GlobToken
  | literal (char : Char)
  | anyChar
  | anySequence
  /-- Any number of whole components. -/
  | anyComponents
  /-- A character in one of the ranges, or in none of them. -/
  | charClass (inside : Bool) (ranges : List (Char × Char))
deriving DecidableEq

/-- The reasons a pattern is none. -/
inductive GlobDefect
  | wildcards
  | recursiveWildcards
  | invalidRange
deriving DecidableEq

/-- What is wrong with a pattern, and near which of its characters. -/
structure GlobError where
  position : Nat
  defect : GlobDefect
deriving DecidableEq

namespace GlobDefect

def message : GlobDefect → String
  | wildcards => "wildcards are either regular `*` or recursive `**`"
  | recursiveWildcards => "recursive wildcards must form a single path component"
  | invalidRange => "invalid range pattern"

end GlobDefect

namespace GlobError

def message (error : GlobError) : String :=
  "Pattern syntax error near position " ++ error.position.repr ++ ": " ++ error.defect.message

end GlobError

/-- A pattern for whole paths. -/
structure Glob where
  tokens : List GlobToken
deriving DecidableEq

namespace GlobToken

/-- The character fits a token that stands for one character. -/
def acceptsChar (token : GlobToken) (char : Char) : Bool :=
  match token with
  | literal expected => char == expected
  | anyChar => true
  | charClass inside ranges =>
    ranges.any (fun (first, last) => first ≤ char && char ≤ last) == inside
  | anySequence | anyComponents => false

end GlobToken

namespace Glob

/-! ## Reading patterns -/

/-- The ranges between brackets; a hyphen between two characters makes a range
of them. -/
def parseRanges : List Char → List (Char × Char)
  | first :: '-' :: last :: rest => (first, last) :: parseRanges rest
  | char :: rest => (char, char) :: parseRanges rest
  | [] => []

/-- The character class behind an opening bracket, and what follows its closing
bracket.  The first character in the class may itself be a bracket. -/
def parseClass (text : List Char) : Option (GlobToken × List Char) :=
  let inside := text.head? != some '!'
  match if inside then text else text.drop 1 with
  | [] => none
  | first :: more =>
    match more.span (· != ']') with
    | (chars, _ :: rest) => some (.charClass inside (parseRanges (first :: chars)), rest)
    | (_, []) => none

/-- Read tokens behind those read before (last one first).  `total` is the
length of the whole pattern, and `componentStart` tells whether a component
starts here.  Every token takes a character, so the length is enough fuel. -/
def parseTokens (total : Nat) :
    (fuel : Nat) → List GlobToken → (componentStart : Bool) → List Char →
      Except GlobError (List GlobToken)
  | 0, before, _, _ => .ok before.reverse
  | fuel + 1, before, componentStart, text =>
    let position := total - text.length
    match text with
    | [] => .ok before.reverse
    | '*' :: '*' :: '*' :: _ => .error ⟨position + 2, .wildcards⟩
    | '*' :: '*' :: rest =>
      if componentStart then
        match rest with
        | [] => .ok (.anyComponents :: before).reverse
        | '/' :: rest => parseTokens total fuel (.anyComponents :: before) true rest
        | _ => .error ⟨position + 2, .recursiveWildcards⟩
      else .error ⟨position - 1, .recursiveWildcards⟩
    | '*' :: rest => parseTokens total fuel (.anySequence :: before) false rest
    | '?' :: rest => parseTokens total fuel (.anyChar :: before) false rest
    | '[' :: rest =>
      match parseClass rest with
      | some (token, rest) => parseTokens total fuel (token :: before) false rest
      | none => .error ⟨position, .invalidRange⟩
    | char :: rest => parseTokens total fuel (.literal char :: before) (char == '/') rest

/-- The pattern that a text spells. -/
def parse (text : String) : Except GlobError Glob := do
  let chars := text.toList
  return ⟨← parseTokens chars.length chars.length [] true chars⟩

/-! ## Matching

A list of flags says which positions of the path, from in front of its first
character to behind its last one, the tokens so far can end at. -/

/-- From every position reached, every later one is. -/
def spread (seen : Bool) : List Bool → List Bool
  | [] => []
  | reached :: later => (seen || reached) :: spread (seen || reached) later

/-- From every position reached, every later start of a component is, and so is
the end of the path. -/
def spreadComponents (seen componentStart : Bool) : List Char → List Bool → List Bool
  | _, [] => []
  | [], reached :: later => (reached || seen) :: spreadComponents (seen || reached) false [] later
  | char :: rest, reached :: later =>
    (reached || seen && componentStart) ::
      spreadComponents (seen || reached) (char == '/') rest later

/-- The positions that one more token can end at. -/
def advance (path : List Char) (reached : List Bool) (token : GlobToken) : List Bool :=
  match token with
  | .anySequence => spread false reached
  | .anyComponents => spreadComponents false false path reached
  | single => false :: List.zipWith (fun char here => here && single.acceptsChar char) path reached

/-- The positions that the tokens so far can end at when there are none yet. -/
def initial (path : List Char) : List Bool := true :: path.map fun _ => false

/-- The pattern fits the whole path. -/
def accepts (glob : Glob) (path : String) : Bool :=
  let chars := path.toList
  ((glob.tokens.foldl (advance chars) (initial chars)).getLast?).getD false

end Glob

end ClassDelta
