import BackendFoundation.PythonValues

/-! A text form of JSON values from which every value reads back. It shows that
a signing library with the round trip asked of it exists; the library's own text
is its own matter. -/
namespace BackendFoundation.JsonTexts
open PythonValues

/-! Lists are written item by item, each after a mark, with an end mark last. -/

def mark : CodePoint := 1
def done : CodePoint := 0

def renderText : Str → Str
  | [] => [done]
  | c :: rest => mark :: c :: renderText rest

def renderNat : ℕ → Str
  | 0 => [done]
  | n + 1 => mark :: renderNat n

mutual

def render : Json → Str
  | .null => [0]
  | .bool false => [1]
  | .bool true => [2]
  | .int (.ofNat n) => 3 :: renderNat n
  | .int (.negSucc n) => 4 :: renderNat n
  | .float false => [5]
  | .float true => [6]
  | .str text => 7 :: renderText text
  | .arr items => 8 :: renderItems items
  | .obj fields => 9 :: renderFields fields

def renderItems : List Json → Str
  | [] => [done]
  | item :: rest => mark :: (render item ++ renderItems rest)

def renderFields : List (Str × Json) → Str
  | [] => [done]
  | field :: rest => mark :: (renderField field ++ renderFields rest)

def renderField : Str × Json → Str
  | (name, value) => renderText name ++ render value

end

/-! Each reader gives what it has read and the rest of its input. -/

def readText : ℕ → Str → Option (Str × Str)
  | 0, _ => none
  | fuel + 1, input =>
    match input with
    | [] => none
    | first :: input =>
      if first = done then some ([], input)
      else match input with
        | [] => none
        | c :: input => (readText fuel input).map fun (text, input) => (c :: text, input)

def readNat : Str → Option (ℕ × Str)
  | [] => none
  | first :: input =>
    if first = done then some (0, input)
    else (readNat input).map fun (n, input) => (n + 1, input)

mutual

def read : ℕ → Str → Option (Json × Str)
  | 0, _ => none
  | _ + 1, [] => none
  | fuel + 1, tag :: input =>
    match tag.val with
    | 0 => some (.null, input)
    | 1 => some (.bool false, input)
    | 2 => some (.bool true, input)
    | 3 => (readNat input).map fun (n, input) => (.int (.ofNat n), input)
    | 4 => (readNat input).map fun (n, input) => (.int (.negSucc n), input)
    | 5 => some (.float false, input)
    | 6 => some (.float true, input)
    | 7 => (readText fuel input).map fun (text, input) => (.str text, input)
    | 8 => (readItems fuel input).map fun (items, input) => (.arr items, input)
    | _ => (readFields fuel input).map fun (fields, input) => (.obj fields, input)

def readItems : ℕ → Str → Option (List Json × Str)
  | 0, _ => none
  | _ + 1, [] => none
  | fuel + 1, first :: input =>
    if first = done then some ([], input)
    else (read fuel input).bind fun (item, input) =>
      (readItems fuel input).map fun (items, input) => (item :: items, input)

def readFields : ℕ → Str → Option (List (Str × Json) × Str)
  | 0, _ => none
  | _ + 1, [] => none
  | fuel + 1, first :: input =>
    if first = done then some ([], input)
    else (readText fuel input).bind fun (name, input) => (read fuel input).bind fun (value, input) =>
      (readFields fuel input).map fun (fields, input) => ((name, value) :: fields, input)

end

theorem readNat_render (n : ℕ) (rest : Str) : readNat (renderNat n ++ rest) = some (n, rest) := by
  induction n with
  | zero => simp [renderNat, readNat]
  | succ n ih => simp [renderNat, readNat, ih, mark, done]

theorem readText_render (text rest : Str) (fuel : ℕ) (enough : (renderText text).length ≤ fuel) :
    readText fuel (renderText text ++ rest) = some (text, rest) := by
  induction text generalizing fuel with
  | nil =>
    cases fuel with
    | zero => simp [renderText] at enough
    | succ fuel => simp [renderText, readText]
  | cons c text ih =>
    cases fuel with
    | zero => simp [renderText] at enough
    | succ fuel =>
      have enough : (renderText text).length ≤ fuel := by
        simp only [renderText, List.length_cons] at enough
        omega
      simp [renderText, readText, ih fuel enough, mark, done]

mutual

theorem read_render (value : Json) (rest : Str) (fuel : ℕ) (enough : (render value).length ≤ fuel) :
    read fuel (render value ++ rest) = some (value, rest) := by
  cases fuel with
  | zero =>
    cases value with
    | bool value => cases value <;> simp [render] at enough
    | int value => cases value <;> simp [render] at enough
    | float value => cases value <;> simp [render] at enough
    | _ => simp [render] at enough
  | succ fuel =>
    match value with
    | .null => simp [render, read]
    | .bool false => simp [render, read]
    | .bool true => simp [render, read]
    | .int (.ofNat n) => simp [render, read, readNat_render]
    | .int (.negSucc n) => simp [render, read, readNat_render]
    | .float false => simp [render, read]
    | .float true => simp [render, read]
    | .str text =>
      have enough : (renderText text).length ≤ fuel := by
        simpa [render] using enough
      simp [render, read, readText_render text rest fuel enough]
    | .arr items =>
      have enough : (renderItems items).length ≤ fuel := by
        simpa [render] using enough
      simp [render, read, readItems_render items rest fuel enough]
    | .obj fields =>
      have enough : (renderFields fields).length ≤ fuel := by
        simpa [render] using enough
      simp [render, read, readFields_render fields rest fuel enough]

theorem readItems_render (items : List Json) (rest : Str) (fuel : ℕ)
    (enough : (renderItems items).length ≤ fuel) :
    readItems fuel (renderItems items ++ rest) = some (items, rest) := by
  cases fuel with
  | zero => cases items <;> simp [renderItems] at enough
  | succ fuel =>
    match items with
    | [] => simp [renderItems, readItems]
    | item :: items =>
      simp only [renderItems, List.length_cons, List.length_append] at enough
      have first := read_render item (renderItems items ++ rest) fuel (by omega)
      have others := readItems_render items rest fuel (by omega)
      simp [renderItems, readItems, first, others, mark, done]

theorem readFields_render (fields : List (Str × Json)) (rest : Str) (fuel : ℕ)
    (enough : (renderFields fields).length ≤ fuel) :
    readFields fuel (renderFields fields ++ rest) = some (fields, rest) := by
  cases fuel with
  | zero => cases fields <;> simp [renderFields] at enough
  | succ fuel =>
    match fields with
    | [] => simp [renderFields, readFields]
    | (name, value) :: fields =>
      simp only [renderFields, renderField, List.length_cons, List.length_append] at enough
      have named := readText_render name (render value ++ (renderFields fields ++ rest)) fuel (by omega)
      have first := read_render value (renderFields fields ++ rest) fuel (by omega)
      have others := readFields_render fields rest fuel (by omega)
      simp [renderFields, renderField, readFields, named, first, others, mark, done]

end

/-- Every mapping reads back from its text. -/
theorem readFields_of_render (fields : Claims) :
    readFields (renderFields fields).length (renderFields fields) = some (fields, []) := by
  have whole := readFields_render fields [] (renderFields fields).length le_rfl
  rwa [List.append_nil] at whole

end BackendFoundation.JsonTexts
