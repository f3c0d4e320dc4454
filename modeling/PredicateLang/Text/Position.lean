set_option autoImplicit false

namespace PredicateLang

structure Position where
  line : UInt32
  column : UInt32
  index : UInt32
  deriving DecidableEq, Repr

namespace Position

def start : Position := ⟨1, 0, 0⟩

instance : Inhabited Position := ⟨start⟩

def advance (p : Position) (c : Char) : Position :=
  -- The position after a character: a newline opens a line, every other character takes one column.
  if c = '\n' then ⟨p.line + 1, 0, p.index + 1⟩ else ⟨p.line, p.column + 1, p.index + 1⟩

def advanceOver (p : Position) (text : List Char) : Position := text.foldl advance p

@[simp] theorem advanceOver_nil (p : Position) : p.advanceOver [] = p := rfl

@[simp] theorem advanceOver_cons (p : Position) (c : Char) (text : List Char) :
    p.advanceOver (c :: text) = (p.advance c).advanceOver text := rfl

theorem advanceOver_append (p : Position) (first second : List Char) :
    p.advanceOver (first ++ second) = (p.advanceOver first).advanceOver second :=
  List.foldl_append

def order (p q : Position) : Ordering :=
  -- Line first, then column, then index.
  (compare p.line q.line).then ((compare p.column q.column).then (compare p.index q.index))

def text (p : Position) : String := s!"{p.line.toNat}:{p.column.toNat}"

end Position

end PredicateLang
