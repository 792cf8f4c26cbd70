import LuaDocs.Project.Exclusion
import LuaDocs.Text.Places

/-!
# Wildcards

A language of file patterns. A question mark stands for one character, a star
for any run of characters, brackets for one of several characters, and two stars, as a whole part of a
path, for any number of whole parts. A slash is a character like any other outside of two stars. A
pattern has to match a whole path.
-/

namespace LuaDocs

inductive GlobMember where
  | single (c : Char)
  /-- The characters between two bounds, both included. -/
  | range (first last : Char)
  deriving DecidableEq

inductive GlobToken where
  | char (c : Char)
  /-- One character. -/
  | anyChar
  /-- Any run of characters. -/
  | anyRun
  /-- Any number of whole parts of a path. -/
  | anyParts
  /-- One of some characters, or one of all others. -/
  | oneOf (negated : Bool) (members : List GlobMember)
  deriving DecidableEq

/-- Why a text is no file pattern. The position counts characters. -/
inductive GlobFault where
  /-- More than two stars in a row. -/
  | wildcards (position : Nat)
  /-- Two stars that are not a whole part of a path. -/
  | recursiveWildcards (position : Nat)
  /-- A bracket that is not closed. -/
  | invalidRange (position : Nat)
  deriving DecidableEq

namespace GlobFault

def describe (position : Nat) (what : Text) : Text :=
  "Pattern syntax error near position ".toList ++ Text.ofNat position ++ ": ".toList ++ what

def message : GlobFault → Text
  | wildcards n =>
    describe n "wildcards are either regular \x60*\x60 or recursive \x60**\x60".toList
  | recursiveWildcards n =>
    describe n "recursive wildcards must form a single path component".toList
  | invalidRange n => describe n "invalid range pattern".toList

end GlobFault

abbrev Glob := List GlobToken

namespace Glob

open Text

/-! ### Reading -/

/-- The members of a class. A hyphen between two characters makes a range of them. -/
def members : Text → List GlobMember
  | a :: '-' :: b :: s => .range a b :: members s
  | a :: s => .single a :: members s
  | [] => []

/-- The class after an opening bracket and the text after its closing bracket. A closing bracket that
comes first is a member. -/
def class? (s : Text) : Option (GlobToken × Text) :=
  let negated := ['!'].isPrefixOf s
  match (if negated then s.drop 1 else s) with
  | [] => none
  | first :: s =>
    match s.dropWhile (· != ']') with
    | [] => none
    | _ :: rest => some (.oneOf negated (members (first :: s.takeWhile (· != ']'))), rest)

/-- The pattern that a text is. `position` is that of the text in the whole pattern, `atPart` says
that a part of a path starts with it, and `fuel` bounds the number of tokens. -/
def readFrom : (fuel position : Nat) → (atPart : Bool) → Text → Except GlobFault Glob
  | 0, _, _, _ => .ok []
  | _, _, _, [] => .ok []
  | fuel + 1, position, _, '?' :: s => return .anyChar :: (← readFrom fuel (position + 1) false s)
  | fuel + 1, position, _, '[' :: s =>
    match class? s with
    | none => .error (.invalidRange position)
    | some (token, rest) =>
      return token :: (← readFrom fuel (position + 1 + (s.length - rest.length)) false rest)
  | fuel + 1, position, atPart, '*' :: s =>
    match s with
    | '*' :: '*' :: _ => .error (.wildcards (position + 2))
    | '*' :: rest =>
      if !atPart then .error (.recursiveWildcards (position - 1))
      else match rest with
        | [] => .ok [.anyParts]
        | '/' :: rest => return .anyParts :: (← readFrom fuel (position + 3) true rest)
        | _ => .error (.recursiveWildcards (position + 2))
    | s => return .anyRun :: (← readFrom fuel (position + 1) false s)
  | fuel + 1, position, _, c :: s =>
    return .char c :: (← readFrom fuel (position + 1) (c == '/') s)

def ofText (s : Text) : Except GlobFault Glob :=
  readFrom s.length 0 true s

/-! ### Matching -/

def memberContains (c : Char) : GlobMember → Bool
  | .single d => c == d
  | .range first last => first ≤ c && c ≤ last

/-- The places of a text that a token leads to from some places. From the first of them on, a star leads
to every place, and two stars to every place after a slash and to the end. -/
def advance (s : Array Char) (places : Places) : GlobToken → Places
  | .char c => places.past s (· == c)
  | .anyChar => places.past s fun _ => true
  | .oneOf negated ms => places.past s fun c => negated != ms.any (memberContains c)
  | .anyRun =>
    match places.getLast? with
    | none => []
    | some first => (Places.upTo s.size).filter (first ≤ ·)
  | .anyParts =>
    match places.getLast? with
    | none => []
    | some first =>
      places.union ((Places.upTo s.size).filter fun i =>
        i == s.size || (first < i && s[i - 1]? == some '/'))

def isMatch (g : Glob) (s : Text) : Bool :=
  let s := s.toArray
  (g.foldl (advance s) [0]).contains s.size

end Glob

namespace Standard

scoped instance globs : GlobLanguage where
  compile pattern :=
    match Glob.ofText pattern with
    | .ok glob => .ok glob.isMatch
    | .error fault => .error fault.message

end Standard

end LuaDocs
