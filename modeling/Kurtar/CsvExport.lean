import Mathlib.Algebra.Order.Group.Nat
import Mathlib.Data.List.Infix
import Kurtar.CharacterReplacement
import Kurtar.CommaSeparated

/-!
# CSV exports

One helper writes every export. A field that a spreadsheet would take for a
formula gets an apostrophe, a field with a quote, a comma or a line break gets
quotes, and a row ends with CRLF. The rows are read page by page and written as
they come; after a failure the response is destroyed instead of ended.
-/

namespace Kurtar.CsvExport

open CharacterReplacement CommaSeparated

/-- A field of a row; `ν` are the numbers. -/
inductive CsvValue (ν : Type*) where
  | string (s : String)
  | number (n : ν)
  | null
  | undefined

/-- The characters of the class `[=+\-@\t\r]`. -/
def triggers : List Char := ['=', '+', '-', '@', '\t', '\r']

/-- `FORMULA_INJECTION_TRIGGER.test(str)` -/
def FORMULA_INJECTION_TRIGGER (str : String) : Bool := str.toList.head?.any (· ∈ triggers)

section Fields

variable {ν : Type*} (numberToString : ν → String)

/-- The escaped text of a field that is neither null nor undefined. -/
def escapeString (str : String) : String :=
  let str := if FORMULA_INJECTION_TRIGGER str then "'" ++ str else str
  if str.toList.any (· ∈ ['"', ',', '\r', '\n']) then "\"" ++ str.replace "\"" "\"\"" ++ "\""
  else str

def csvEscapeField : CsvValue ν → String
  | .null => ""
  | .undefined => ""
  | .string s => escapeString s
  | .number n => escapeString (numberToString n)

def csvRow (fields : List (CsvValue ν)) : String :=
  ",".intercalate (fields.map (csvEscapeField numberToString)) ++ "\r\n"

end Fields

section Streaming

/-- An `Error` object. -/
structure JsError where
  message : String

/-- What a `throw` throws: an `Error`, or a value with its text. -/
inductive Thrown where
  | error (e : JsError)
  | value (text : String)

/-- `err instanceof Error ? err : new Error(String(err))` -/
def Thrown.toError : Thrown → JsError
  | .error e => e
  | .value text => ⟨text⟩

/-- A call on the response. -/
inductive ResponseCall where
  | setHeader (name value : String)
  | write (chunk : String)
  | endResponse
  | destroy (error : JsError)

variable {ν τ : Type*} (numberToString : ν → String)
  (fetchPage : ℕ → ℕ → Except Thrown (List τ)) (toRow : τ → Except Thrown (List (CsvValue ν)))
  (pageSize : ℕ)

/-- The chunks written for a page, and what stopped it. -/
def writePage : List τ → List String × Option Thrown
  | [] => ([], none)
  | item :: rest =>
    match toRow item with
    | .error err => ([], some err)
    | .ok row =>
      let later := writePage rest
      (csvRow numberToString row :: later.1, later.2)

/-- The loop over the pages from `skip` on; none when the fuel is used up. -/
def writePages : ℕ → ℕ → Option (List String × Option Thrown)
  | 0, _ => none
  | fuel+1, skip =>
    match fetchPage skip pageSize with
    | .error err => some ([], some err)
    | .ok page =>
      match writePage numberToString toRow page with
      | (chunks, some err) => some (chunks, some err)
      | (chunks, none) =>
        if page.length < pageSize then some (chunks, none)
        else (writePages fuel (skip+page.length)).map fun later => (chunks ++ later.1, later.2)

/-- The calls before the first page is read. -/
def opening (filename : String) (header : List String) : List ResponseCall :=
  [.setHeader "Content-Type" "text/csv; charset=utf-8",
    .setHeader "Content-Disposition" ("attachment; filename=\"" ++ filename ++ "\""),
    .write (csvRow numberToString (header.map .string))]

/-- The last call. -/
def closing : Option Thrown → ResponseCall
  | none => .endResponse
  | some err => .destroy err.toError

def streamCsv (fuel : ℕ) (filename : String) (header : List String) : Option (List ResponseCall) :=
  (writePages numberToString fetchPage toRow pageSize fuel 0).map fun body =>
    opening numberToString filename header ++ body.1.map .write ++ [closing body.2]

end Streaming

section Grammar

variable {ν : Type*} {numberToString : ν → String}

/-- The text a field is read back as: an apostrophe stands before a trigger. -/
def guarded (text : List Char) : List Char :=
  match text with
  | [] => []
  | c :: rest => if c ∈ triggers then '\'' :: c :: rest else c :: rest

/-- The value a field is read back as. -/
def readCell (numberToString : ν → String) : CsvValue ν → List Char
  | .null => []
  | .undefined => []
  | .string s => guarded s.toList
  | .number n => guarded (numberToString n).toList

theorem guarded_head {text : List Char} {c : Char} (h : (guarded text).head? = some c) :
    c ∉ triggers := by
  cases text with
  | nil => exact nomatch h
  | cons d rest =>
    rw [guarded] at h
    split_ifs at h with hd
    · rw [List.head?_cons, Option.some.injEq] at h
      rw [← h]
      decide
    · rw [List.head?_cons, Option.some.injEq] at h
      rwa [← h]

theorem readCell_head {v : CsvValue ν} {c : Char} (h : (readCell numberToString v).head? = some c) :
    c ∉ triggers := by
  cases v with
  | null => exact nomatch h
  | undefined => exact nomatch h
  | string s => exact guarded_head h
  | number n => exact guarded_head h

theorem toList_guarded (str : String) :
    (if FORMULA_INJECTION_TRIGGER str then "'" ++ str else str).toList = guarded str.toList := by
  rw [apply_ite String.toList, String.toList_append, FORMULA_INJECTION_TRIGGER]
  cases str.toList with
  | nil => rfl
  | cons c rest =>
    rw [List.head?_cons, Option.any_some, guarded]
    by_cases hc : c ∈ triggers
    · simp only [hc, decide_true, if_true]
      rfl
    · simp only [hc, decide_false, Bool.false_eq_true, if_false]

/-- Doubled quotes read back as quotes. -/
theorem escaped_doubled (text : List Char) :
    Escaped (text.flatMap (substitute '"' "\"\"")) text := by
  induction text with
  | nil => exact .nil
  | cons c rest ih =>
    rw [List.flatMap_cons, substitute]
    split_ifs with hc
    · rw [hc]
      exact .quote ih
    · exact .char hc ih

/-- An escaped text is a field of the grammar. -/
theorem field_escapeString (str : String) : Field (escapeString str).toList (guarded str.toList) := by
  unfold escapeString
  simp only
  rw [← toList_guarded]
  generalize (if FORMULA_INJECTION_TRIGGER str then "'" ++ str else str) = text
  split_ifs with hspecial
  · have hdoubled : (text.replace "\"" "\"\"").toList = text.toList.flatMap (substitute '"' "\"\"") :=
      toList_replace_singleton text '"' "\"\""
    rw [String.toList_append, String.toList_append, hdoubled]
    exact .escaped (escaped_doubled text.toList)
  · refine .plain fun c hc => ?_
    have hnot : c ∉ ['"', ',', '\r', '\n'] := fun hmem =>
      hspecial (List.any_eq_true.mpr ⟨c, hc, decide_eq_true hmem⟩)
    simp only [List.mem_cons, List.not_mem_nil, or_false, not_or] at hnot
    exact hnot

theorem field_csvEscapeField (v : CsvValue ν) :
    Field (csvEscapeField numberToString v).toList (readCell numberToString v) := by
  cases v with
  | null => exact .plain nofun
  | undefined => exact .plain nofun
  | string s => exact field_escapeString s
  | number n => exact field_escapeString (numberToString n)

/-- The fields of a row joined by commas are a record. -/
theorem record_fields {fields : List (CsvValue ν)} (h : fields ≠ []) :
    Record (",".intercalate (fields.map (csvEscapeField numberToString))).toList
      (fields.map (readCell numberToString)) := by
  induction fields with
  | nil => exact absurd rfl h
  | cons v rest ih =>
    cases rest with
    | nil =>
      rw [List.map_cons, List.map_nil, String.intercalate_singleton]
      exact .one (field_csvEscapeField v)
    | cons w rest =>
      have hne : (w :: rest).map (csvEscapeField numberToString) ≠ [] := List.cons_ne_nil _ _
      rw [List.map_cons, String.intercalate_cons_of_ne_nil hne, String.toList_append,
        String.toList_append, List.append_assoc]
      exact .more (field_csvEscapeField v) (ih (List.cons_ne_nil w rest))

/-- The rows one after another are a file. -/
theorem file_rows (numberToString : ν → String) {rows : List (List (CsvValue ν))} (h : ∀ row ∈ rows, row ≠ []) :
    File (String.join (rows.map (csvRow numberToString))).toList
      (rows.map (List.map (readCell numberToString))) := by
  induction rows with
  | nil => exact .nil
  | cons row rest ih =>
    have hrest := ih fun r hr => h r (List.mem_cons_of_mem row hr)
    rw [List.map_cons, String.join_cons, String.toList_append, csvRow, String.toList_append,
      List.append_assoc]
    exact .cons (record_fields (h row List.mem_cons_self)) hrest

end Grammar

section Pages

variable {ν τ : Type*} {numberToString : ν → String}
  {fetchPage : ℕ → ℕ → Except Thrown (List τ)} {toRow : τ → Except Thrown (List (CsvValue ν))}
  {pageSize skip fuel : ℕ} {items page : List τ} {err : Thrown}
  {chunks : List String} {failure : Option Thrown}

/-- What the rows written for `items`, which are read from `skip` on, are: all of
them when nothing failed, else those before the first row that cannot be mapped
or before the first page that cannot be read. -/
inductive Streamed (fetchPage : ℕ → ℕ → Except Thrown (List τ))
    (toRow : τ → Except Thrown (List (CsvValue ν))) (pageSize skip : ℕ) (items : List τ) :
    List (List (CsvValue ν)) → Option Thrown → Prop
  | complete {written : List (List (CsvValue ν))} (hrows : items.map toRow = written.map .ok)
      (hpages : ∀ i, i*pageSize ≤ items.length →
        ∃ page, fetchPage (skip+i*pageSize) pageSize = .ok page) :
      Streamed fetchPage toRow pageSize skip items written none
  | badRow {written : List (List (CsvValue ν))} {err : Thrown}
      (hrows : written.map .ok ++ [.error err] <+: items.map toRow) :
      Streamed fetchPage toRow pageSize skip items written (some err)
  | badPage {written : List (List (CsvValue ν))} {err : Thrown} (i : ℕ)
      (hi : i*pageSize ≤ items.length) (hpage : fetchPage (skip+i*pageSize) pageSize = .error err)
      (hrows : (items.take (i*pageSize)).map toRow = written.map .ok) :
      Streamed fetchPage toRow pageSize skip items written (some err)

/-- A page is written up to its first row that cannot be mapped. -/
theorem writePage_spec (numberToString : ν → String) (toRow : τ → Except Thrown (List (CsvValue ν)))
    (page : List τ) : ∃ written : List (List (CsvValue ν)),
      writePage numberToString toRow page = (written.map (csvRow numberToString), none) ∧
          page.map toRow = written.map .ok ∨
        ∃ err, writePage numberToString toRow page =
            (written.map (csvRow numberToString), some err) ∧
          written.map .ok ++ [.error err] <+: page.map toRow := by
  induction page with
  | nil => exact ⟨[], Or.inl ⟨rfl, rfl⟩⟩
  | cons item rest ih =>
    rw [writePage, List.map_cons]
    cases hrow : toRow item with
    | error err => exact ⟨[], Or.inr ⟨err, rfl, rest.map toRow, rfl⟩⟩
    | ok row =>
      obtain ⟨written, hcase⟩ := ih
      refine ⟨row :: written, ?_⟩
      cases hcase with
      | inl hall =>
        simp only [hall.1]
        exact Or.inl ⟨rfl, by rw [hall.2]; rfl⟩
      | inr hcut =>
        obtain ⟨err, hpage, hstart⟩ := hcut
        simp only [hpage]
        exact Or.inr ⟨err, rfl, List.cons_prefix_cons.mpr ⟨rfl, hstart⟩⟩

/-- A page that is not full is the last one. -/
theorem Streamed.last_page {written : List (List (CsvValue ν))}
    (hrows : items.map toRow = written.map .ok) (hshort : items.length < pageSize)
    (hpage : ∃ page, fetchPage skip pageSize = .ok page) :
    Streamed fetchPage toRow pageSize skip items written none := by
  refine .complete hrows fun i hi => ?_
  cases i with
  | zero => rwa [Nat.zero_mul, Nat.add_zero]
  | succ i =>
    rw [Nat.succ_mul] at hi
    omega

/-- A full page written before the rest. -/
theorem Streamed.cons_page {first written : List (List (CsvValue ν))}
    (hfirst : (items.take pageSize).map toRow = first.map .ok) (hfull : pageSize ≤ items.length)
    (hpage : ∃ page, fetchPage skip pageSize = .ok page)
    (h : Streamed fetchPage toRow pageSize (skip+pageSize) (items.drop pageSize) written failure) :
    Streamed fetchPage toRow pageSize skip items (first ++ written) failure := by
  have hsplit : items.map toRow = first.map .ok ++ (items.drop pageSize).map toRow := by
    rw [← hfirst, ← List.map_append, List.take_append_drop]
  have hnext (i : ℕ) : skip+(i+1)*pageSize = skip+pageSize+i*pageSize := by
    rw [Nat.succ_mul]
    omega
  cases h with
  | complete hrows hpages =>
    refine .complete ?_ fun i hi => ?_
    · rw [hsplit, hrows, List.map_append]
    · cases i with
      | zero => rwa [Nat.zero_mul, Nat.add_zero]
      | succ i =>
        rw [hnext i]
        refine hpages i ?_
        rw [List.length_drop]
        rw [Nat.succ_mul] at hi
        omega
  | badRow hrows =>
    refine .badRow ?_
    rw [hsplit, List.map_append, List.append_assoc]
    exact (List.prefix_append_right_inj _).mpr hrows
  | badPage i hi hfail hrows =>
    rw [List.length_drop] at hi
    refine .badPage (i+1) ?_ ?_ ?_
    · rw [Nat.succ_mul]
      omega
    · rwa [hnext i]
    · rw [Nat.succ_mul, Nat.add_comm, List.take_add, List.map_append, hfirst, hrows, List.map_append]

/-- The loop writes the rows of the items from `skip` on. -/
theorem writePages_spec (numberToString : ν → String) (toRow : τ → Except Thrown (List (CsvValue ν)))
    (hfetch : ∀ skip page, fetchPage skip pageSize = .ok page →
      page = (items.drop skip).take pageSize)
    (hfuel : items.length < skip+fuel*pageSize) (hskip : skip ≤ items.length) :
    ∃ (written : List (List (CsvValue ν))) (failure : Option Thrown),
      writePages numberToString fetchPage toRow pageSize fuel skip =
        some (written.map (csvRow numberToString), failure) ∧
      Streamed fetchPage toRow pageSize skip (items.drop skip) written failure := by
  induction fuel generalizing skip with
  | zero => omega
  | succ fuel ih =>
    cases hpage : fetchPage skip pageSize with
    | error err =>
      refine ⟨[], some err, by simp [writePages, hpage], .badPage 0 ?_ ?_ ?_⟩
      · omega
      · rwa [Nat.zero_mul, Nat.add_zero]
      · rw [Nat.zero_mul]
        rfl
    | ok page =>
      have hrows := hfetch skip page hpage
      obtain ⟨written, hcase⟩ := writePage_spec numberToString toRow page
      rw [writePages, hpage]
      cases hcase with
      | inr hcut =>
        obtain ⟨err, hwrite, hstart⟩ := hcut
        refine ⟨written, some err, by simp only [hwrite], .badRow (hstart.trans ?_)⟩
        rw [hrows]
        exact (List.take_prefix pageSize _).map toRow
      | inl hall =>
        obtain ⟨hwrite, hmapped⟩ := hall
        have hlength : page.length = min pageSize (items.length-skip) := by
          rw [hrows, List.length_take, List.length_drop]
        simp only [hwrite]
        split_ifs with hshort
        · have hlast : (items.drop skip).length < pageSize := by
            rw [List.length_drop]
            omega
          rw [hrows, List.take_of_length_le hlast.le] at hmapped
          exact ⟨written, none, rfl, .last_page hmapped hlast ⟨page, hpage⟩⟩
        · have hfull : page.length = pageSize := by omega
          rw [hfull]
          rw [Nat.succ_mul] at hfuel
          have hnext : skip+pageSize ≤ items.length := by omega
          have hrest : items.length < skip+pageSize+fuel*pageSize := by omega
          obtain ⟨later, failure, hloop, hlater⟩ := ih hrest hnext
          refine ⟨written ++ later, failure, ?_, ?_⟩
          · rw [hloop, List.map_append]
            rfl
          · rw [← List.drop_drop] at hlater
            rw [hrows] at hmapped
            exact hlater.cons_page hmapped (by rw [List.length_drop]; omega) ⟨page, hpage⟩

/-- The written rows read back as they were, no field with a trigger in front.
An export is the header and every row, then the end; or, when a page cannot be
read or a row cannot be mapped, the rows before it, and the response destroyed. -/
theorem csv_export_faithful (numberToString : ν → String) (rows : List (List (CsvValue ν)))
    (hne : ∀ row ∈ rows, row ≠ []) :
    (∀ parsed, File (String.join (rows.map (csvRow numberToString))).toList parsed ↔
        parsed = rows.map (List.map (readCell numberToString))) ∧
      (∀ parsed, File (String.join (rows.map (csvRow numberToString))).toList parsed →
        ∀ record ∈ parsed, ∀ field ∈ record, ∀ c ∈ field.head?, c ∉ triggers) ∧
      ∀ (items : List τ) (fetchPage : ℕ → ℕ → Except Thrown (List τ))
        (toRow : τ → Except Thrown (List (CsvValue ν))) (pageSize fuel : ℕ) (filename : String)
        (header : List String), 0 < pageSize → items.length/pageSize < fuel →
        (∀ skip page, fetchPage skip pageSize = .ok page → page = (items.drop skip).take pageSize) →
        ∃ (written : List (List (CsvValue ν))) (last : ResponseCall),
          streamCsv numberToString fetchPage toRow pageSize fuel filename header =
              some (opening numberToString filename header ++
                written.map (fun row => .write (csvRow numberToString row)) ++ [last]) ∧
            (last = .endResponse ∧ items.map toRow = written.map .ok ∧
                (∀ i, i*pageSize ≤ items.length →
                  ∃ page, fetchPage (i*pageSize) pageSize = .ok page) ∨
              ∃ err, last = .destroy err.toError ∧
                (written.map .ok ++ [.error err] <+: items.map toRow ∨
                  ∃ i, i*pageSize ≤ items.length ∧
                    fetchPage (i*pageSize) pageSize = .error err ∧
                    (items.take (i*pageSize)).map toRow = written.map .ok)) := by
  have hfile := file_rows numberToString hne
  refine ⟨fun parsed => file_iff hfile, ?_, ?_⟩
  · intro parsed hparsed record hrecord field hfield c hc
    rw [(file_iff hfile).mp hparsed] at hrecord
    obtain ⟨row, _, heq⟩ := List.mem_map.mp hrecord
    rw [← heq] at hfield
    obtain ⟨v, _, hv⟩ := List.mem_map.mp hfield
    rw [← hv] at hc
    exact readCell_head hc
  · intro items fetchPage toRow pageSize fuel filename header hpos hfuel hfetch
    have henough : items.length < 0+fuel*pageSize := by
      rw [Nat.zero_add]
      exact (Nat.div_lt_iff_lt_mul hpos).mp hfuel
    obtain ⟨written, failure, hloop, hstreamed⟩ :=
      writePages_spec numberToString toRow hfetch henough (Nat.zero_le _)
    refine ⟨written, closing failure, ?_, ?_⟩
    · rw [streamCsv, hloop, Option.map_some, List.map_map]
      rfl
    · rw [List.drop_zero] at hstreamed
      cases hstreamed with
      | complete hrows hpages =>
        refine Or.inl ⟨rfl, hrows, fun i hi => ?_⟩
        have hpage := hpages i hi
        rwa [Nat.zero_add] at hpage
      | @badRow err hrows => exact Or.inr ⟨err, rfl, Or.inl hrows⟩
      | @badPage err i hi hpage hrows =>
        rw [Nat.zero_add] at hpage
        exact Or.inr ⟨err, rfl, Or.inr ⟨i, hi, hpage, hrows⟩⟩

theorem csv_export_faithful_sample :
    File (String.join ([[.string "=1\",", .null, .number (-5)]].map (csvRow (toString : ℤ → String)))).toList
        [["'=1\",".toList, [], "'-5".toList]] ∧
      ∃ calls, streamCsv (toString : ℤ → String) (fun skip take => .ok (([7, 8, 9].drop skip).take take))
        (fun n => .ok [.number n]) 2 2 "rows.csv" ["id"] = some calls := by
  have h := @csv_export_faithful ℤ ℤ toString
    [[.string "=1\",", .null, .number (-5)]] (by simp)
  refine ⟨(h.1 _).mpr (by decide +kernel), ?_⟩
  obtain ⟨written, last, hcalls, _⟩ := h.2.2 [7, 8, 9]
    (fun skip take => .ok (([7, 8, 9].drop skip).take take)) (fun n => .ok [.number n]) 2 2 "rows.csv"
    ["id"] (by decide) (by decide) (fun skip page hpage => (Except.ok.inj hpage).symm)
  exact ⟨_, hcalls⟩

end Pages

end Kurtar.CsvExport
