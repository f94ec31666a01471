set_option autoImplicit false

/-!
# Writing YAML in block style

A `Block` is a tree of lists and mappings with plain scalars at its leaves. It is written with one entry
a line: the entries of a mapping are indented below the name that they belong to, the entries of a list
are not. Empty lists and mappings have a form of their own on the line of their name.
-/

namespace ChartOperator.Yaml

/-- A tree to be written. A scalar is written as it is, so it has to be a plain or quoted scalar already. -/
inductive Block
  | scalar (text : String)
  | items (entries : List Block)
  | fields (entries : List (String × Block))
  deriving Repr

namespace Block

/-- A text as a scalar. -/
def ofText (s : String) : Block := scalar (if s.isEmpty then "''" else s)

/-- Texts as a list. -/
def ofTexts (l : List String) : Block := items (l.map ofText)

/-- A truth value as a scalar. -/
def ofBool (b : Bool) : Block := scalar (if b then "true" else "false")

/-- Lines as an entry of a list. -/
def bulleted : List String → List String
  | [] => []
  | l :: ls => ("- " ++ l) :: ls.map ("  " ++ ·)

mutual
/-- The lines of a block. -/
def lines : Block → List String
  | scalar t => [t]
  | items [] => ["[]"]
  | items (b :: bs) => itemLines (b :: bs)
  | fields [] => ["\x7b\x7d"]
  | fields (f :: fs) => fieldLines (f :: fs)
/-- The lines of the entries of a list. -/
def itemLines : List Block → List String
  | [] => []
  | b :: bs => bulleted (lines b) ++ itemLines bs
/-- The lines of the entries of a mapping. -/
def fieldLines : List (String × Block) → List String
  | [] => []
  | (name, scalar t) :: fs => (name ++ ": " ++ t) :: fieldLines fs
  | (name, items []) :: fs => (name ++ ": []") :: fieldLines fs
  | (name, items (b :: bs)) :: fs => (name ++ ":") :: itemLines (b :: bs) ++ fieldLines fs
  | (name, fields []) :: fs => (name ++ ": \x7b\x7d") :: fieldLines fs
  | (name, fields (g :: gs)) :: fs =>
    (name ++ ":") :: (fieldLines (g :: gs)).map ("  " ++ ·) ++ fieldLines fs
end

/-- A block as a document. -/
def text (b : Block) : String := String.join (b.lines.map (· ++ "\n"))

end Block

end ChartOperator.Yaml
