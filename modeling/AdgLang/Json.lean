import Mathlib.Data.List.Basic
/-!
# Json — JSON values and recursion over them

A JSON value as a document reader hands it out: text is a character list, a number is kept as written, and an object
keeps its properties in order, so that of several properties with one name the last is the one found.  `Json.fold` ties
a function that reads an object's properties, and recurses into them and into their items, into one recursion;
`Json.fold_induct` is the induction that goes with it.
-/

inductive Json
  | null
  | bool (b : Bool)
  | number (raw : List Char)
  | string (value : List Char)
  | array (items : List Json)
  | object (properties : List (List Char × Json))

namespace Json

/-- A property's value, with what the recursion returns on it and on each of its items. -/
structure Element (ρ : Type) where
  json : Json
  result : ρ
  items : List ρ

/-- The properties of an object, each with what the recursion returns there. -/
abbrev Properties (ρ : Type) := List (List Char × Element ρ)

variable {ρ : Type}

mutual

/-- Recursion over a value: `f` is given the value and its properties. -/
def fold (f : Json → Properties ρ → ρ) : Json → ρ
  | .object properties => f (.object properties) (foldProperties f properties)
  | .array items => f (.array items) []
  | .null => f .null []
  | .bool b => f (.bool b) []
  | .number raw => f (.number raw) []
  | .string value => f (.string value) []

def foldProperties (f : Json → Properties ρ → ρ) : List (List Char × Json) → Properties ρ
  | [] => []
  | (name, j) :: properties => (name, ⟨j, fold f j, foldElements f j⟩) :: foldProperties f properties

def foldElements (f : Json → Properties ρ → ρ) : Json → List ρ
  | .array items => foldItems f items
  | _ => []

def foldItems (f : Json → Properties ρ → ρ) : List Json → List ρ
  | [] => []
  | j :: items => fold f j :: foldItems f items

end

/-- The last property of that name, as `TryGetProperty` finds it. -/
def lookup {α : Type} (name : List Char) (properties : List (List Char × α)) : Option α :=
  (properties.reverse.find? (fun p => decide (p.1 = name))).map Prod.snd

/-- The first of the names that is a property. -/
def lookupAny {α : Type} (names : List (List Char)) (properties : List (List Char × α)) : Option α :=
  names.findSome? (fun name => lookup name properties)

theorem mem_of_lookup {α : Type} {name : List Char} {properties : List (List Char × α)} {a : α}
    (h : lookup name properties = some a) : ∃ n, (n, a) ∈ properties := by
  obtain ⟨p, hp, rfl⟩ := Option.map_eq_some_iff.1 h
  exact ⟨p.1, List.mem_reverse.1 (List.mem_of_find?_eq_some hp)⟩

theorem mem_of_lookupAny {α : Type} {names : List (List Char)} {properties : List (List Char × α)} {a : α}
    (h : lookupAny names properties = some a) : ∃ n, (n, a) ∈ properties := by
  obtain ⟨name, -, hname⟩ := List.exists_of_findSome?_eq_some h
  exact mem_of_lookup hname

/-- A property of results, for an element and its items. -/
def Element.Holds (P : ρ → Prop) (e : Element ρ) : Prop := P e.result ∧ ∀ r ∈ e.items, P r

mutual

/-- **Induction over a fold**: what `f` gives wherever its elements give it, the fold gives. -/
theorem fold_induct {f : Json → Properties ρ → ρ} {P : ρ → Prop}
    (h : ∀ j properties, (∀ p ∈ properties, p.2.Holds P) → P (f j properties)) : ∀ j : Json, P (fold f j)
  | .object properties => by
    rw [fold]; exact h _ _ (foldProperties_induct h properties)
  | .array items => by
    rw [fold]; exact h _ _ (fun _ hp => by cases hp)
  | .null => by
    rw [fold]; exact h _ _ (fun _ hp => by cases hp)
  | .bool b => by
    rw [fold]; exact h _ _ (fun _ hp => by cases hp)
  | .number raw => by
    rw [fold]; exact h _ _ (fun _ hp => by cases hp)
  | .string value => by
    rw [fold]; exact h _ _ (fun _ hp => by cases hp)

theorem foldProperties_induct {f : Json → Properties ρ → ρ} {P : ρ → Prop}
    (h : ∀ j properties, (∀ p ∈ properties, p.2.Holds P) → P (f j properties)) :
    ∀ (properties : List (List Char × Json)), ∀ p ∈ foldProperties f properties, p.2.Holds P
  | [], _, hp => by rw [foldProperties] at hp; cases hp
  | (name, j) :: properties, p, hp => by
    rw [foldProperties] at hp
    rcases List.mem_cons.1 hp with rfl | hp
    · exact ⟨fold_induct h j, foldElements_induct h j⟩
    · exact foldProperties_induct h properties p hp

theorem foldElements_induct {f : Json → Properties ρ → ρ} {P : ρ → Prop}
    (h : ∀ j properties, (∀ p ∈ properties, p.2.Holds P) → P (f j properties)) :
    ∀ (j : Json), ∀ r ∈ foldElements f j, P r
  | .array items, r, hr => by
    rw [foldElements] at hr; exact foldItems_induct h items r hr
  | .object _, _, hr | .null, _, hr | .bool _, _, hr | .number _, _, hr | .string _, _, hr => by
    simp [foldElements] at hr

theorem foldItems_induct {f : Json → Properties ρ → ρ} {P : ρ → Prop}
    (h : ∀ j properties, (∀ p ∈ properties, p.2.Holds P) → P (f j properties)) :
    ∀ (items : List Json), ∀ r ∈ foldItems f items, P r
  | [], _, hr => by rw [foldItems] at hr; cases hr
  | j :: items, r, hr => by
    rw [foldItems] at hr
    rcases List.mem_cons.1 hr with rfl | hr
    · exact fold_induct h j
    · exact foldItems_induct h items r hr

end

end Json
