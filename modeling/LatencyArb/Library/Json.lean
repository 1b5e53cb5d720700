import Mathlib

/-!
# Texts of objects and strings

A reader for the part of JSON that has no values but objects and strings, with the escapes of one letter. A text
that is written without blanks is read back if and only if all its strings are.
-/

namespace LatencyArb

namespace Json

mutual

inductive Value where
  | str (s : List Char)
  | obj (members : Members)

inductive Members where
  | none
  | more (key : List Char) (value : Value) (rest : Members)

end

/-! ## The reader -/

def isBlank (c : Char) : Bool := decide (c ∈ [' ', '\t', '\n', '\r'])

def skip (s : List Char) : List Char := s.dropWhile isBlank

def unescape (c : Char) : Option Char :=
  if c = '\"' ∨ c = '\\' ∨ c = '/' then some c
  else if c = 'b' then some '\x08'
  else if c = 'f' then some '\x0c'
  else if c = 'n' then some '\n'
  else if c = 'r' then some '\r'
  else if c = 't' then some '\t'
  else .none

/-- The characters that may not stand in a string as they are. -/
def isControl (c : Char) : Bool := decide (c.toNat < 32)

/-- The rest of a string, behind its opening quote. -/
def readString : List Char → Option (List Char × List Char)
  | [] => .none
  | c :: t =>
    if c = '\"' then some ([], t)
    else if c = '\\' then
      match t with
      | [] => .none
      | e :: u =>
        match unescape e with
        | .none => .none
        | some d => (readString u).map (fun r => (d :: r.1, r.2))
    else if isControl c then .none
    else (readString t).map (fun r => (c :: r.1, r.2))

lemma readString_end (t : List Char) : readString ('\"' :: t) = some ([], t) := by
  unfold readString
  rfl

lemma readString_escaped {e d : Char} (h : unescape e = some d) (t : List Char) :
    readString ('\\' :: e :: t) = (readString t).map (fun r => (d :: r.1, r.2)) := by
  rw [readString.eq_def]
  dsimp only
  rw [if_neg (by decide), if_pos rfl, h]

lemma readString_other {c : Char} (hquote : c ≠ '\"') (hslash : c ≠ '\\') (t : List Char) :
    readString (c :: t) =
      if isControl c = true then .none else (readString t).map (fun r => (c :: r.1, r.2)) := by
  rw [readString.eq_def]
  dsimp only
  rw [if_neg hquote, if_neg hslash]

mutual

/-- A value and the text behind it. -/
def readValue : Nat → List Char → Option (Value × List Char)
  | 0, _ => .none
  | fuel + 1, s =>
    match skip s with
    | [] => .none
    | c :: t =>
      if c = '\"' then (readString t).map (fun r => (.str r.1, r.2))
      else if c = '\x7b' then
        if (skip t).head? = some '\x7d' then some (.obj .none, (skip t).tail)
        else (readMembers fuel t).map (fun r => (.obj r.1, r.2))
      else .none

/-- The members of an object up to its end. -/
def readMembers : Nat → List Char → Option (Members × List Char)
  | 0, _ => .none
  | fuel + 1, s =>
    match skip s with
    | [] => .none
    | c :: t =>
      if c = '\"' then
        (readString t).bind (fun key =>
          if (skip key.2).head? = some ':' then
            (readValue fuel (skip key.2).tail).bind (fun value =>
              if (skip value.2).head? = some ',' then
                (readMembers fuel (skip value.2).tail).map (fun rest => (.more key.1 value.1 rest.1, rest.2))
              else if (skip value.2).head? = some '\x7d' then
                some (.more key.1 value.1 .none, (skip value.2).tail)
              else .none)
          else .none)
      else .none

end

/-- Reads a text that holds nothing but one value. -/
def read (s : List Char) : Option Value :=
  (readValue s.length s).bind (fun r => if skip r.2 = [] then some r.1 else .none)

/-! ## Writing without blanks -/

section Text

variable (lit : List Char → List Char)

mutual

/-- The text of a value whose strings are written by `lit`. -/
def Value.text : Value → List Char
  | .str s => lit s
  | .obj members => '\x7b' :: (members.text ++ ['\x7d'])

def Members.text : Members → List Char
  | .none => []
  | .more key value .none => lit key ++ ':' :: value.text
  | .more key value rest => lit key ++ ':' :: (value.text ++ ',' :: rest.text)

end

variable (clean : List Char → Prop)

mutual

/-- All strings of a value are clean. -/
def Value.Clean : Value → Prop
  | .str s => clean s
  | .obj members => members.Clean

def Members.Clean : Members → Prop
  | .none => True
  | .more key value rest => clean key ∧ value.Clean ∧ rest.Clean

end

/-- How strings are written: in quotes, and so that the clean ones are read back, whatever follows, and of the others
none. -/
structure Literal : Prop where
  quoted : ∀ s, ∃ inner, lit s = '\"' :: inner
  reads : ∀ s rest, clean s → readString ((lit s).tail ++ rest) = some (s, rest)
  fails : ∀ s rest, ¬clean s → readString ((lit s).tail ++ rest) = .none

end Text

variable {lit : List Char → List Char} {clean : List Char → Prop}

lemma skip_cons {c : Char} (h : isBlank c = false) (s : List Char) : skip (c :: s) = c :: s := by
  rw [skip, List.dropWhile_cons_of_neg (by simp [h])]

lemma Literal.length_pos (h : Literal lit clean) (s : List Char) : 0 < (lit s).length := by
  obtain ⟨inner, hinner⟩ := h.quoted s
  rw [hinner]
  exact Nat.succ_pos _

lemma Literal.readValue_str (h : Literal lit clean) (fuel : Nat) (s rest : List Char) :
    readValue (fuel + 1) (lit s ++ rest) =
      (readString ((lit s).tail ++ rest)).map (fun r => (.str r.1, r.2)) := by
  obtain ⟨inner, hinner⟩ := h.quoted s
  rw [hinner, List.cons_append, readValue, skip_cons (by decide)]
  rfl

lemma Literal.readMembers_key (h : Literal lit clean) (fuel : Nat) (key rest : List Char) :
    readMembers (fuel + 1) (lit key ++ rest) = (readString ((lit key).tail ++ rest)).bind (fun key =>
      if (skip key.2).head? = some ':' then
        (readValue fuel (skip key.2).tail).bind (fun value =>
          if (skip value.2).head? = some ',' then
            (readMembers fuel (skip value.2).tail).map (fun rest => (.more key.1 value.1 rest.1, rest.2))
          else if (skip value.2).head? = some '\x7d' then
            some (.more key.1 value.1 .none, (skip value.2).tail)
          else .none)
      else .none) := by
  obtain ⟨inner, hinner⟩ := h.quoted key
  rw [hinner, List.cons_append, readMembers, skip_cons (by decide)]
  rfl

/-- An object that has members. -/
lemma Literal.readValue_obj (h : Literal lit clean) (fuel : Nat) (key : List Char) (value : Value) (m : Members)
    (rest : List Char) :
    readValue (fuel + 1) ('\x7b' :: ((Members.more key value m).text lit ++ rest)) =
      (readMembers fuel ((Members.more key value m).text lit ++ rest)).map (fun r => (.obj r.1, r.2)) := by
  obtain ⟨inner, hinner⟩ := h.quoted key
  have htext : ∃ later, (Members.more key value m).text lit = '\"' :: later := by
    cases m with
    | none => exact ⟨_, by rw [Members.text, hinner, List.cons_append]⟩
    | more _ _ _ => exact ⟨_, by rw [Members.text, hinner, List.cons_append]; simp⟩
  obtain ⟨later, hlater⟩ := htext
  rw [hlater, List.cons_append, readValue, skip_cons (by decide)]
  rfl

/-- The first member, the last one or not. -/
lemma Literal.readMembers_value (h : Literal lit clean) {key : List Char} (hkey : clean key) (fuel : Nat)
    (text : List Char) : readMembers (fuel + 1) (lit key ++ ':' :: text) = (readValue fuel text).bind (fun value =>
      if (skip value.2).head? = some ',' then
        (readMembers fuel (skip value.2).tail).map (fun rest => (.more key value.1 rest.1, rest.2))
      else if (skip value.2).head? = some '\x7d' then
        some (.more key value.1 .none, (skip value.2).tail)
      else .none) := by
  rw [h.readMembers_key, h.reads key _ hkey, Option.bind_some]
  dsimp only
  rw [skip_cons (by decide)]
  rfl

mutual

/-- A value is read back if its strings are clean, and not read if they are not. -/
theorem Literal.readValue_text (h : Literal lit clean) : (v : Value) → ∀ (fuel : Nat) (rest : List Char),
    (v.text lit).length ≤ fuel →
      (v.Clean clean → readValue fuel (v.text lit ++ rest) = some (v, rest)) ∧
      (¬v.Clean clean → readValue fuel (v.text lit ++ rest) = .none)
  | .str s, 0, _, hfuel => by
    have hpos := h.length_pos s
    rw [Value.text] at hfuel
    omega
  | .str s, fuel + 1, rest, _ => by
    rw [Value.text, Value.Clean, h.readValue_str]
    constructor
    · intro hclean
      rw [h.reads s rest hclean, Option.map_some]
    · intro hclean
      rw [h.fails s rest hclean, Option.map_none]
  | .obj m, 0, _, hfuel => by
    rw [Value.text, List.length_cons] at hfuel
    omega
  | .obj .none, fuel + 1, rest, _ => by
    constructor
    · intro _
      rw [Value.text, Members.text, List.nil_append, List.cons_append, List.singleton_append, readValue,
        skip_cons (by decide)]
      rfl
    · intro hclean
      exact absurd trivial hclean
  | .obj (.more key value m), fuel + 1, rest, hfuel => by
    rw [Value.text, List.length_cons, List.length_append] at hfuel
    rw [Value.text, Value.Clean, List.cons_append, List.append_assoc, List.singleton_append, h.readValue_obj]
    have hread := h.readMembers_text key value m fuel rest (by omega)
    constructor
    · intro hclean
      rw [hread.1 hclean, Option.map_some]
    · intro hclean
      rw [hread.2 hclean, Option.map_none]

theorem Literal.readMembers_text (h : Literal lit clean) (key : List Char) (value : Value) :
    (m : Members) → ∀ (fuel : Nat) (rest : List Char), ((Members.more key value m).text lit).length ≤ fuel →
      ((Members.more key value m).Clean clean →
        readMembers fuel ((Members.more key value m).text lit ++ '\x7d' :: rest) =
          some (.more key value m, rest)) ∧
      (¬(Members.more key value m).Clean clean →
        readMembers fuel ((Members.more key value m).text lit ++ '\x7d' :: rest) = .none)
  | m, 0, _, hfuel => by
    have hpos := h.length_pos key
    cases m with
    | none =>
      rw [Members.text, List.length_append] at hfuel
      omega
    | more _ _ _ =>
      rw [Members.text, List.length_append] at hfuel
      · omega
      · simp
  | .none, fuel + 1, rest, hfuel => by
    have hpos := h.length_pos key
    rw [Members.text, List.length_append, List.length_cons] at hfuel
    have hvalue := h.readValue_text value fuel ('\x7d' :: rest) (by omega)
    rw [Members.text, List.append_assoc, List.cons_append, Members.Clean, Members.Clean]
    by_cases hkey : clean key
    · rw [h.readMembers_value hkey]
      constructor
      · rintro ⟨-, hclean, -⟩
        rw [hvalue.1 hclean, Option.bind_some]
        dsimp only
        rw [skip_cons (by decide)]
        rfl
      · intro hclean
        rw [hvalue.2 (fun hv => hclean ⟨hkey, hv, trivial⟩), Option.bind_none]
    · rw [h.readMembers_key, h.fails key _ hkey]
      exact ⟨fun hclean => absurd hclean.1 hkey, fun _ => rfl⟩
  | .more key' value' m, fuel + 1, rest, hfuel => by
    have hpos := h.length_pos key
    have htext : (Members.more key value (.more key' value' m)).text lit =
        lit key ++ ':' :: (value.text lit ++ ',' :: (Members.more key' value' m).text lit) := by
      rw [Members.text]
      simp
    rw [htext, List.length_append, List.length_cons, List.length_append, List.length_cons] at hfuel
    have hvalue := h.readValue_text value fuel
      (',' :: ((Members.more key' value' m).text lit ++ '\x7d' :: rest)) (by omega)
    have hrest := h.readMembers_text key' value' m fuel rest (by omega)
    rw [htext, List.append_assoc, List.cons_append, List.append_assoc, List.cons_append, Members.Clean]
    by_cases hkey : clean key
    · rw [h.readMembers_value hkey]
      by_cases hclean : value.Clean clean
      · rw [hvalue.1 hclean, Option.bind_some]
        dsimp only
        rw [skip_cons (by decide), List.head?_cons, if_pos rfl, List.tail_cons]
        constructor
        · rintro ⟨-, -, hcleanRest⟩
          rw [hrest.1 hcleanRest, Option.map_some]
        · intro hunclean
          rw [hrest.2 (fun hm => hunclean ⟨hkey, hclean, hm⟩), Option.map_none]
      · rw [hvalue.2 hclean, Option.bind_none]
        exact ⟨fun hall => absurd hall.2.1 hclean, fun _ => rfl⟩
    · rw [h.readMembers_key, h.fails key _ hkey]
      exact ⟨fun hall => absurd hall.1 hkey, fun _ => rfl⟩

end

/-- The text of a value is read back if and only if all its strings are clean. -/
theorem Literal.read_text_iff (h : Literal lit clean) (v : Value) :
    read (v.text lit) = some v ↔ v.Clean clean := by
  have hread := h.readValue_text v _ [] le_rfl
  rw [List.append_nil] at hread
  unfold read
  constructor
  · intro hv
    by_contra hclean
    rw [hread.2 hclean] at hv
    cases hv
  · intro hclean
    rw [hread.1 hclean]
    rfl

end Json

end LatencyArb
