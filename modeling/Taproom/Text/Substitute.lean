import Taproom.Text.Cut
import Taproom.Text.Number

/-!
Putting values in the place of marks in a text, in one pass from left to right. Values that were
put in are not looked at again.
-/

namespace Taproom.Text

def firstMark? (table : List (List Char × List Char)) (s : List Char) :
    Option (List Char × List Char) :=
  table.findSome? fun (mark, value) => (dropPrefix? mark s).map fun rest => (value, rest)

def replaceMarks (table : List (List Char × List Char)) : List Char → List Char
  | [] => []
  | c :: s =>
    match firstMark? table (c :: s) with
    | some (value, rest) =>
      if _h : rest.length < (c :: s).length then value ++ replaceMarks table rest
      else c :: replaceMarks table s
    | none => c :: replaceMarks table s
termination_by s => s.length
decreasing_by all_goals (simp only [List.length_cons] at *; omega)

def isVariableChar (c : Char) : Bool :=
  isDigit c || ('a' ≤ c && c ≤ 'z') || ('A' ≤ c && c ≤ 'Z') || c = '_' || c = '.' || c = '+' ||
    c = '-'

def nameAt? (s : List Char) : Option (List Char × List Char) :=
  match s with
  | '$' :: '\x7b' :: rest =>
    match rest.takeWhile isVariableChar, rest.dropWhile isVariableChar with
    | c :: name, '\x7d' :: after => some (c :: name, after)
    | _, _ => none
  | _ => none

theorem length_nameAt? {s name rest : List Char} (h : nameAt? s = some (name, rest)) :
    rest.length < s.length := by
  unfold nameAt? at h
  split at h
  · rename_i body
    split at h
    · rename_i hd
      simp only [Option.some.injEq, Prod.mk.injEq] at h
      obtain ⟨-, rfl⟩ := h
      have : (body.dropWhile isVariableChar).length ≤ body.length :=
        (List.dropWhile_sublist _).length_le
      rw [hd] at this
      simp only [List.length_cons] at this ⊢
      omega
    · simp at h
  · simp at h

def expandVariables (value? : List Char → Option (List Char)) (s : List Char) : List Char :=
  match s with
  | [] => []
  | c :: tail =>
    match h : nameAt? (c :: tail) with
    | some (name, rest) =>
      have : rest.length < (c :: tail).length := length_nameAt? h
      (match value? name with
        | some v => v
        | none => '$' :: '\x7b' :: name ++ ['\x7d']) ++ expandVariables value? rest
    | none => c :: expandVariables value? tail
termination_by s.length
decreasing_by all_goals (simp only [List.length_cons] at *; omega)

end Taproom.Text
