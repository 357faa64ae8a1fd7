import Kurtar.KeyedTable

/-!
# Cookie jars

What a browser keeps of the cookies that one host sets. A cookie is identified
by its name and its path together: setting it replaces the one with the same
name and path and leaves every other alone. A request carries the cookies
whose path is a prefix of its own.
-/

namespace Kurtar.CookieJars

open KeyedTable

/-- A path as its segments; a prefix of segments is the match of paths. -/
abbrev Path := List String

structure Cookie where
  name : String
  path : Path
  value : String
  expires : ℤ
  /-- Scripts cannot read it. -/
  httpOnly : Bool
  deriving DecidableEq

def Cookie.identity (c : Cookie) : String × Path := (c.name, c.path)

abbrev Jar := Table Cookie.identity

/-- What a response header asks for. -/
inductive SetCookie where
  | set (c : Cookie)
  /-- Set with a date in the past, which removes it. -/
  | clear (name : String) (path : Path)
  deriving DecidableEq

def SetCookie.identity : SetCookie → String × Path
  | .set c => c.identity
  | .clear name path => (name, path)

def SetCookie.kept : SetCookie → Option Cookie
  | .set c => some c
  | .clear _ _ => none

def remove (jar : Jar) (identity : String × Path) : Jar :=
  jar.deleteMany (·.identity = identity)

def receive (jar : Jar) (header : SetCookie) : Jar :=
  match header.kept with
  | some c => (remove jar header.identity).insertNew c
  | none => remove jar header.identity

/-- The headers of a response, in their order. -/
def receiveAll (jar : Jar) (headers : List SetCookie) : Jar := headers.foldl receive jar

/-- The cookies that a request to a path carries. -/
def attached (jar : Jar) (path : Path) : List Cookie := jar.rows.filter (·.path <+: path)

/-- The value a server finds under a name: the first one sent. -/
def valueOf (cookies : List Cookie) (name : String) : Option String :=
  (cookies.find? (·.name = name)).map (·.value)

variable {jar : Jar} {header : SetCookie} {headers : List SetCookie} {c : Cookie}

theorem mem_remove {identity : String × Path} :
    c ∈ (remove jar identity).rows ↔ c ∈ jar.rows ∧ c.identity ≠ identity :=
  Table.mem_deleteMany

theorem mem_receive : c ∈ (receive jar header).rows ↔
    header.kept = some c ∨ c ∈ jar.rows ∧ c.identity ≠ header.identity := by
  cases header with
  | set d =>
    simp only [receive, SetCookie.kept, SetCookie.identity, Table.mem_insertNew, Option.some.injEq]
    constructor
    · rintro (hc | ⟨rfl, _⟩)
      · exact Or.inr (mem_remove.mp hc)
      · exact Or.inl rfl
    · rintro (rfl | hc)
      · exact Or.inr ⟨rfl, fun q hq => (mem_remove.mp hq).2⟩
      · exact Or.inl (mem_remove.mpr hc)
  | clear name path =>
    simp only [receive, SetCookie.kept, SetCookie.identity, mem_remove, reduceCtorEq, false_or]

/-- What is in the jar after a response was there before or was set by it. -/
theorem mem_of_receiveAll (h : c ∈ (receiveAll jar headers).rows) :
    c ∈ jar.rows ∨ .set c ∈ headers := by
  induction headers generalizing jar with
  | nil => exact Or.inl h
  | cons header headers ih =>
    rcases ih h with hc | hc
    · rcases mem_receive.mp hc with hkept | ⟨hc, _⟩
      · cases header with
        | set d =>
          cases hkept
          exact Or.inr List.mem_cons_self
        | clear name path => cases hkept
      · exact Or.inl hc
    · exact Or.inr (List.mem_cons_of_mem _ hc)

/-- Cookies that no header is about stay in the jar and do not come into it. -/
theorem mem_receiveAll_iff (h : ∀ header ∈ headers, header.identity ≠ c.identity) :
    c ∈ (receiveAll jar headers).rows ↔ c ∈ jar.rows := by
  induction headers generalizing jar with
  | nil => exact Iff.rfl
  | cons header headers ih =>
    have hother := h header List.mem_cons_self
    have hfirst : c ∈ (receive jar header).rows ↔ c ∈ jar.rows := by
      rw [mem_receive]
      constructor
      · rintro (hkept | hc)
        · cases header with
          | set d =>
            cases hkept
            exact absurd rfl hother
          | clear name path => cases hkept
        · exact hc.1
      · exact fun hc => Or.inr ⟨hc, hother.symm⟩
    exact (ih fun header' hmem => h header' (List.mem_cons_of_mem _ hmem)).trans hfirst

theorem mem_attached {path : Path} :
    c ∈ attached jar path ↔ c ∈ jar.rows ∧ c.path <+: path := by
  simp [attached, List.mem_filter]

theorem exists_of_valueOf {cookies : List Cookie} {name value : String}
    (h : valueOf cookies name = some value) :
    ∃ c ∈ cookies, c.name = name ∧ c.value = value := by
  obtain ⟨c, hc, hvalue⟩ := Option.map_eq_some_iff.mp h
  refine ⟨c, List.mem_of_find?_eq_some hc, ?_, hvalue⟩
  simpa using List.find?_some hc

end Kurtar.CookieJars
