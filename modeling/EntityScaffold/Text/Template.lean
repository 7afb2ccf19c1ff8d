import EntityScaffold.Text.Integer

/-!
# Replacement templates

A template is the text that takes the place of a match. A backslash starts an escape: the match
itself by its group number zero, a control character, or a character by its octal code. Before any
other character that is no letter of the alphabet the backslash stands for itself.
-/

namespace EntityScaffold.Text.Template

/-- Why a text is no template. -/
inductive Fault
  /-- An escape that has no meaning, or that the end cuts off. -/
  | malformed
  /-- A group that is called by a name. -/
  | unknownGroup
  deriving DecidableEq, Repr

/-- What a backslash and one of these letters stand for. -/
def control? : Char → Option Char
  | 'a' => some '\x07'
  | 'b' => some '\x08'
  | 'f' => some '\x0c'
  | 'n' => some '\n'
  | 'r' => some '\r'
  | 't' => some '\t'
  | 'v' => some '\x0b'
  | '\\' => some '\\'
  | _ => none

def isOctal (c : Char) : Bool := '0' ≤ c && c ≤ '7'

/-- The character of an octal code. -/
def ofOctal (ds : List Char) : Nat := ds.foldl (fun n d => n * 8 + (d.toNat - '0'.toNat)) 0

/-- The text can be the name of a group. -/
def isGroupName : List Char → Bool
  | [] => false
  | c :: rest =>
    let start (c : Char) : Bool := match Category.of c with
      | .letter | .letterNumber => true
      | _ => c == '_'
    start c && rest.all fun c => match Category.of c with
      | .letter | .letterNumber | .digit | .mark | .connector => true
      | _ => false

/-- What a group reference stands for where only the whole match is a group. -/
def group (whole : List Char) (ref : List Char) : Except Fault (List Char) :=
  if isGroupName ref then .error .unknownGroup
  else match Integer.read? 10 ref with
    | some 0 => .ok whole
    | _ => .error .malformed

/-- What an escape after its backslash stands for, and the rest of the template. -/
def escape (whole : List Char) : List Char → Except Fault (List Char × List Char)
  | [] => .error .malformed
  | 'g' :: '<' :: rest =>
    match rest.dropWhile (· != '>') with
    | [] => .error .malformed
    | _ :: after => (group whole (rest.takeWhile (· != '>'))).map fun cs => (cs, after)
  | '0' :: rest =>
    let more := (rest.take 2).takeWhile isOctal
    .ok ([Char.ofNat (ofOctal more % 256)], rest.drop more.length)
  | c :: rest =>
    -- three octal digits are a code; any other number is that of a group which is not there
    if c.isDigit then
      match rest with
      | d :: e :: rest =>
        if isOctal c && isOctal d && isOctal e && ofOctal [c, d, e] < 256 then
          .ok ([Char.ofNat (ofOctal [c, d, e])], rest)
        else .error .malformed
      | _ => .error .malformed
    else
      match control? c with
      | some e => .ok ([e], rest)
      | none => if c.isAlpha then .error .malformed else .ok (['\\', c], rest)

/-- The text that a template stands for, in at most so many steps. -/
def expandSteps (whole : List Char) : Nat → List Char → Except Fault (List Char)
  | _, [] => .ok []
  | 0, _ :: _ => .ok []
  | n + 1, c :: rest =>
    if c = '\\' then do
      let (cs, rest) ← escape whole rest
      return cs ++ (← expandSteps whole n rest)
    else (expandSteps whole n rest).map (c :: ·)

/-- The text that a template stands for where a match is replaced. -/
def expand (whole template : List Char) : Except Fault (List Char) :=
  expandSteps whole template.length template

/-- A template without backslashes stands for itself. -/
theorem expand_eq_self {whole template : List Char} (h : '\\' ∉ template) :
    expand whole template = .ok template := by
  unfold expand
  induction template with
  | nil => rfl
  | cons c rest ih =>
    have hc : c ≠ '\\' := fun e => h (e ▸ List.mem_cons_self)
    have hr : '\\' ∉ rest := fun m => h (List.mem_cons_of_mem _ m)
    simp [expandSteps, hc, ih hr, Except.map]

end EntityScaffold.Text.Template
