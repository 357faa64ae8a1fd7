import Mathlib.Data.List.Basic
import Mathlib.Tactic.SplitIfs

/-!
# Comma separated values

The grammar of RFC 4180 with every record ended by CRLF. Text data is any
character besides the quote, the comma, CR and LF. A one pass reader accepts
every file of the grammar with its rows, so that a text has one reading.
-/

namespace Kurtar.CommaSeparated

/-- The characters of a field without quotes. -/
def TextData (c : Char) : Prop := c ≠ '"' ∧ c ≠ ',' ∧ c ≠ '\r' ∧ c ≠ '\n'

/-- The text between the quotes of a field, and its value. -/
inductive Escaped : List Char → List Char → Prop
  | nil : Escaped [] []
  | char {c : Char} {text value : List Char} (hc : c ≠ '"') (h : Escaped text value) :
      Escaped (c :: text) (c :: value)
  | quote {text value : List Char} (h : Escaped text value) :
      Escaped ('"' :: '"' :: text) ('"' :: value)

inductive Field : List Char → List Char → Prop
  | plain {text : List Char} (h : ∀ c ∈ text, TextData c) : Field text text
  | escaped {text value : List Char} (h : Escaped text value) : Field ('"' :: (text ++ ['"'])) value

inductive Record : List Char → List (List Char) → Prop
  | one {text value : List Char} (h : Field text value) : Record text [value]
  | more {text value rest : List Char} {values : List (List Char)} (h : Field text value)
      (hrest : Record rest values) : Record (text ++ ',' :: rest) (value :: values)

inductive File : List Char → List (List (List Char)) → Prop
  | nil : File [] []
  | cons {text rest : List Char} {record : List (List Char)} {records : List (List (List Char))}
      (h : Record text record) (hrest : File rest records) :
      File (text ++ '\r' :: '\n' :: rest) (record :: records)

/-- Where a reader stands: before a field, in one without quotes, in one with
quotes, after a quote in it, or after the CR of a line end. -/
inductive Place where
  | fresh
  | plain
  | quoted
  | closing
  | ending
deriving DecidableEq

/-- Reads a text from a place, with the value read so far of the field and the
fields read so far of the record. -/
def read : Place → List Char → List (List Char) → List Char → Option (List (List (List Char)))
  | place, _, fields, [] => if place = .fresh ∧ fields = [] then some [] else none
  | .quoted, value, fields, c :: text =>
      if c = '"' then read .closing value fields text else read .quoted (value ++ [c]) fields text
  | .closing, value, fields, c :: text =>
      if c = '"' then read .quoted (value ++ [c]) fields text
      else if c = ',' then read .fresh [] (fields ++ [value]) text
      else if c = '\r' then read .ending value fields text
      else none
  | .ending, value, fields, c :: text =>
      if c = '\n' then (read .fresh [] [] text).map ((fields ++ [value]) :: ·) else none
  | .fresh, value, fields, c :: text =>
      if c = '"' then read .quoted value fields text
      else if c = ',' then read .fresh [] (fields ++ [value]) text
      else if c = '\r' then read .ending value fields text
      else if c = '\n' then none
      else read .plain (value ++ [c]) fields text
  | .plain, value, fields, c :: text =>
      if c = '"' then none
      else if c = ',' then read .fresh [] (fields ++ [value]) text
      else if c = '\r' then read .ending value fields text
      else if c = '\n' then none
      else read .plain (value ++ [c]) fields text

/-- The rows of a text. -/
def parse (text : List Char) : Option (List (List (List Char))) := read .fresh [] [] text

section Reading

variable {text value sofar rest : List Char} {fields values : List (List Char)}

theorem read_escaped (h : Escaped text value) :
    read .quoted sofar fields (text ++ '"' :: rest) = read .closing (sofar ++ value) fields rest := by
  induction h generalizing sofar with
  | nil => rw [List.nil_append, read, if_pos rfl, List.append_nil]
  | char hc h ih => rw [List.cons_append, read, if_neg hc, ih, List.append_assoc, List.singleton_append]
  | quote h ih =>
    rw [List.cons_append, List.cons_append, read, if_pos rfl, read, if_pos rfl, ih, List.append_assoc,
      List.singleton_append]

/-- The reader is at the end of a field with this value. -/
def AtEnd (place : Place) : Prop := place = .fresh ∨ place = .plain ∨ place = .closing

theorem read_plain (h : ∀ c ∈ text, TextData c) :
    read .plain sofar fields (text ++ rest) = read .plain (sofar ++ text) fields rest := by
  induction text generalizing sofar with
  | nil => rw [List.nil_append, List.append_nil]
  | cons c text ih =>
    obtain ⟨hquote, hcomma, hcr, hlf⟩ := h c List.mem_cons_self
    have htail : ∀ d ∈ text, TextData d := fun d hd => h d (List.mem_cons_of_mem c hd)
    rw [List.cons_append, read, if_neg hquote, if_neg hcomma, if_neg hcr, if_neg hlf, ih htail,
      List.append_assoc, List.singleton_append]

/-- A field is read up to its end with its value. -/
theorem read_field (h : Field text value) :
    ∃ place, AtEnd place ∧
      read .fresh [] fields (text ++ rest) = read place value fields rest := by
  cases h with
  | plain h =>
    cases text with
    | nil => exact ⟨.fresh, Or.inl rfl, rfl⟩
    | cons c text =>
      obtain ⟨hquote, hcomma, hcr, hlf⟩ := h c List.mem_cons_self
      have htail : ∀ d ∈ text, TextData d := fun d hd => h d (List.mem_cons_of_mem c hd)
      refine ⟨.plain, Or.inr (Or.inl rfl), ?_⟩
      rw [List.cons_append, read, if_neg hquote, if_neg hcomma, if_neg hcr, if_neg hlf,
        read_plain htail]
      rfl
  | escaped h =>
    refine ⟨.closing, Or.inr (Or.inr rfl), ?_⟩
    rw [List.cons_append, List.append_assoc, List.singleton_append, read, if_pos rfl, read_escaped h]
    rfl

theorem read_comma {place : Place} (h : AtEnd place) :
    read place value fields (',' :: rest) = read .fresh [] (fields ++ [value]) rest := by
  cases h with
  | inl h => rw [h]; simp [read]
  | inr h =>
    cases h with
    | inl h => rw [h]; simp [read]
    | inr h => rw [h]; simp [read]

theorem read_lineEnd {place : Place} (h : AtEnd place) :
    read place value fields ('\r' :: '\n' :: rest) =
      (parse rest).map ((fields ++ [value]) :: ·) := by
  cases h with
  | inl h => rw [h]; simp [read, parse]
  | inr h =>
    cases h with
    | inl h => rw [h]; simp [read, parse]
    | inr h => rw [h]; simp [read, parse]

theorem read_record (h : Record text values) :
    read .fresh [] fields (text ++ '\r' :: '\n' :: rest) =
      (parse rest).map ((fields ++ values) :: ·) := by
  induction h generalizing fields with
  | one h =>
    obtain ⟨place, hend, hread⟩ := read_field h
    rw [hread, read_lineEnd hend]
  | more h hrest ih =>
    obtain ⟨place, hend, hread⟩ := read_field h
    rw [List.append_assoc, hread, List.cons_append, read_comma hend, ih, List.append_assoc,
      List.singleton_append]

/-- The reader accepts every file, with its rows. -/
theorem parse_of_file {rows : List (List (List Char))} (h : File text rows) : parse text = some rows := by
  induction h with
  | nil => rfl
  | cons h hrest ih =>
    rw [parse, read_record h, ih]
    rfl

/-- A text has one reading. -/
theorem file_iff {rows parsed : List (List (List Char))} (h : File text rows) :
    File text parsed ↔ parsed = rows := by
  constructor
  · intro h'
    have hsame := (parse_of_file h').symm.trans (parse_of_file h)
    exact Option.some.inj hsame
  · intro heq
    rwa [heq]

end Reading

end Kurtar.CommaSeparated
