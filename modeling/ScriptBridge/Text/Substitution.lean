/-! Substitution in a text: one character, one word wherever it stands, and all the slots of a template
at once. -/
namespace ScriptBridge.Text

/-- Every occurrence of one character is replaced. -/
def replaceChar (c : Char) (replacement : List Char) (text : List Char) : List Char :=
  text.flatMap fun d => if d = c then replacement else [d]

/-- The occurrences of a word are found from the left and do not overlap; the replacement is not
searched again. The counter says how many characters of a found occurrence are still to be dropped. -/
def replaceFrom (word replacement : List Char) : Nat → List Char → List Char
  | _, [] => []
  | k + 1, _ :: rest => replaceFrom word replacement k rest
  | 0, c :: rest =>
    if word.isPrefixOf (c :: rest) then
      replacement ++ replaceFrom word replacement (word.length - 1) rest
    else c :: replaceFrom word replacement 0 rest

def replaceWord (word replacement : List Char) (text : List Char) : List Char :=
  replaceFrom word replacement 0 text

/-- A part of a template: text that is kept, or a slot to be filled. -/
inductive Piece (σ : Type) where
  | literal (text : List Char)
  | slot (s : σ)

/-- Every slot is filled with its own value, all at once. -/
def fill {σ : Type} (value : σ → List Char) (pieces : List (Piece σ)) : List Char :=
  pieces.flatMap fun
    | .literal text => text
    | .slot s => value s

/-- The slots of a list, filled one after the other in a text where they stand by name: a later
replacement also sees what an earlier one has written. -/
def replaceSlots {σ : Type} (name value : σ → List Char) (slots : List σ) (text : List Char) :
    List Char :=
  slots.foldl (fun t s => replaceWord (name s) (value s) t) text

end ScriptBridge.Text
