import Lightsd.Core.Jsmn
import Lightsd.Library.OrderedTree

/-! # JSON texts

Well-formed values with all their white space, the bytes they are written with, and the
tree of tokens they stand for. A key is a token whose only child is the value. Strings
and primitives are as wide as the tokenizer takes them.
-/
namespace Lightsd.Core

open OrderedTree Jsmn

/-- What a token of a complete text says, its size apart. -/
structure Label where
  type : TokenType
  start : ℕ
  stop : ℕ
  deriving DecidableEq

def Label.token (entry : Label × ℕ) : Token := ⟨entry.1.type,entry.1.start,entry.1.stop,entry.2⟩

def tokensOf (ts : List (Rose Label)) : List Token := (preorders ts).map Label.token

namespace Json

mutual
inductive Value
  | string (chars : List UInt8)
  | primitive (chars : List UInt8)
  | array (space : List UInt8) (items : Items)
  | object (space : List UInt8) (members : Members)

inductive Items
  | nil
  | cons (before : List UInt8) (value : Value) (after : List UInt8) (rest : Items)

inductive Members
  | nil
  | cons (before key beforeColon afterColon : List UInt8) (value : Value) (after : List UInt8)
      (rest : Members)
end

def quoted (chars : List UInt8) : List UInt8 := 34 :: (chars ++ [34])

/-- Entries of an array or an object are separated by commas. -/
def separator (first : Bool) : List UInt8 := if first then [] else [44]

mutual
def Value.text : Value → List UInt8
  | .string chars => quoted chars
  | .primitive chars => chars
  | .array space items => 91 :: (space ++ (items.text true ++ [93]))
  | .object space members => 123 :: (space ++ (members.text true ++ [125]))

def Items.text (first : Bool) : Items → List UInt8
  | .nil => []
  | .cons before value after rest =>
    separator first ++ (before ++ (value.text ++ (after ++ rest.text false)))

def Members.text (first : Bool) : Members → List UInt8
  | .nil => []
  | .cons before key beforeColon afterColon value after rest =>
    separator first ++ (before ++ (quoted key ++ (beforeColon ++ (58 :: (afterColon ++
      (value.text ++ (after ++ rest.text false)))))))
end

mutual
/-- The tokens of a value that begins at a position. -/
def Value.node (pos : ℕ) : Value → Rose Label
  | .string chars => .node ⟨.string,pos + 1,pos + 1 + chars.length⟩ []
  | .primitive chars => .node ⟨.primitive,pos,pos + chars.length⟩ []
  | .array space items =>
    .node ⟨.array,pos,pos + (Value.array space items).text.length⟩
      (items.nodes true (pos + 1 + space.length))
  | .object space members =>
    .node ⟨.object,pos,pos + (Value.object space members).text.length⟩
      (members.nodes true (pos + 1 + space.length))

def Items.nodes (first : Bool) (pos : ℕ) : Items → List (Rose Label)
  | .nil => []
  | .cons before value after rest =>
    let valuePos := pos + (separator first).length + before.length
    value.node valuePos ::
      rest.nodes false (valuePos + value.text.length + after.length)

def Members.nodes (first : Bool) (pos : ℕ) : Members → List (Rose Label)
  | .nil => []
  | .cons before key beforeColon afterColon value after rest =>
    let keyPos := pos + (separator first).length + before.length
    let valuePos := keyPos + (quoted key).length + beforeColon.length + 1 + afterColon.length
    .node ⟨.string,keyPos + 1,keyPos + 1 + key.length⟩ [value.node valuePos] ::
      rest.nodes false (valuePos + value.text.length + after.length)
end

def Space (bytes : List UInt8) : Prop := ∀ c ∈ bytes, isSpace c = true

instance (bytes : List UInt8) : Decidable (Space bytes) := inferInstanceAs (Decidable (∀ c ∈ bytes, _))

/-- The characters of a string: anything but quotes and NUL bytes, with the escape
sequences of JSON. -/
def stringChars : StringMode → List UInt8 → Bool
  | mode, [] => mode = .plain
  | .plain, c :: cs => c ≠ 0 && c ≠ 34 && stringChars (if c = 92 then .escape else .plain) cs
  | .escape, c :: cs =>
    if isEscape c then stringChars .plain cs else c = 117 && stringChars (.hex 3) cs
  | .hex digits, c :: cs =>
    c ≠ 0 && isHex c && stringChars (.afterDigit digits) cs

def primitiveChars : List UInt8 → Bool
  | [] => false
  | c :: cs => charKind c = .primitive &&
    cs.all (fun c => c ≠ 0 && !endsPrimitive c && !(c < 32 || 127 ≤ c))

mutual
def Value.Valid : Value → Prop
  | .string chars => stringChars .plain chars = true
  | .primitive chars => primitiveChars chars = true
  | .array space items => Space space ∧ items.Valid
  | .object space members => Space space ∧ members.Valid

def Items.Valid : Items → Prop
  | .nil => True
  | .cons before value after rest => Space before ∧ value.Valid ∧ Space after ∧ rest.Valid

def Members.Valid : Members → Prop
  | .nil => True
  | .cons before key beforeColon afterColon value after rest =>
    Space before ∧ stringChars .plain key = true ∧ Space beforeColon ∧ Space afterColon ∧
      value.Valid ∧ Space after ∧ rest.Valid
end

def Value.IsContainer : Value → Prop
  | .array .. | .object .. => True
  | _ => False

/-- The text of a container begins with the opening bracket, and its token spans it. -/
theorem Value.IsContainer.text_node {v : Value} (h : v.IsContainer) :
    ∃ type c rest, v.text = c :: rest ∧ charKind c = .opening type ∧
      ∀ pos, ∃ children, v.node pos = .node ⟨type,pos,pos + v.text.length⟩ children := by
  cases v with
  | string chars => cases h
  | primitive chars => cases h
  | array space items =>
    refine ⟨.array,91,_,by rw [Value.text],by decide,fun pos => ⟨_,by rw [Value.node]⟩⟩
  | object space members =>
    refine ⟨.object,123,_,by rw [Value.text],by decide,fun pos => ⟨_,by rw [Value.node]⟩⟩

/-- A sequence of values, each with the white space before it. -/
abbrev Stream := List (List UInt8 × Value)

namespace Stream

def text (segs : Stream) : List UInt8 := segs.flatMap (fun s => s.1 ++ s.2.text)

/-- Only objects and arrays, written correctly. -/
def Containers (segs : Stream) : Prop := ∀ s ∈ segs, Space s.1 ∧ s.2.Valid ∧ s.2.IsContainer

@[simp] theorem text_nil : text [] = [] := rfl

theorem text_cons (space : List UInt8) (value : Value) (segs : Stream) :
    text ((space,value) :: segs) = (space ++ value.text) ++ text segs := List.flatMap_cons

theorem text_append (segs segs' : Stream) : text (segs ++ segs') = text segs ++ text segs' :=
  List.flatMap_append

def nodes (pos : ℕ) : Stream → List (Rose Label)
  | [] => []
  | (space,value) :: segs =>
    value.node (pos + space.length) :: nodes (pos + space.length + value.text.length) segs

theorem nodes_append (pos : ℕ) (segs segs' : Stream) :
    nodes pos (segs ++ segs') = nodes pos segs ++ nodes (pos + segs.text.length) segs' := by
  induction segs generalizing pos with
  | nil => rfl
  | cons seg segs ih =>
    obtain ⟨space,value⟩ := seg
    rw [List.cons_append,nodes,nodes,ih,text_cons,List.cons_append]
    simp only [List.length_append,Nat.add_assoc]

end Stream
end Json
end Lightsd.Core
