import AdgLang.Fallible
/-!
# NormalForms — readers that accept what they wrote

A normaliser reads a value, refuses it or returns what is to be kept, and what is kept is written as a value again.
`Settles` says that a second reading of what was written returns the same; it is built up along with the readers.
-/

/-- What `first` returned, `second` returns of its writing. -/
def Settles {ε α β : Type} (first second : α → Except ε β) (write : β → α) : Prop :=
  ∀ a b, first a = .ok b → second (write b) = .ok b

theorem Settles.at {ε α β : Type} {first second : α → Except ε β} {write : β → α} (h : Settles first second write) {a v : α}
    {b : β} (hb : first a = .ok b) (hv : v = write b) : second v = .ok b := by
  rw [hv]
  exact h a b hb

/-- The items of a list read in order, each with its position. -/
def mapIndexed {ε α β : Type} (f : Nat → α → Except ε β) (start : Nat) : List α → Except ε (List β)
  | [] => .ok []
  | a :: l => do
    let b ← f start a
    let bs ← mapIndexed f (start + 1) l
    return b :: bs

attribute [grind =] mapIndexed

theorem mapIndexed_cons {ε α β : Type} {f : Nat → α → Except ε β} {start : Nat} {a : α} {l : List α} {bs : List β} :
    mapIndexed f start (a :: l) = .ok bs ↔
      ∃ b rest, f start a = .ok b ∧ mapIndexed f (start + 1) l = .ok rest ∧ bs = b :: rest := by
  rw [mapIndexed, bind_eq_ok]
  constructor
  · rintro ⟨b, hb, h⟩
    obtain ⟨rest, hrest, h⟩ := bind_eq_ok.1 h
    cases h
    exact ⟨b, rest, hb, hrest, rfl⟩
  · rintro ⟨b, rest, hb, hrest, rfl⟩
    exact ⟨b, hb, bind_eq_ok.2 ⟨rest, hrest, rfl⟩⟩

theorem length_mapIndexed {ε α β : Type} {f : Nat → α → Except ε β} {l : List α} :
    ∀ {start : Nat} {bs : List β}, mapIndexed f start l = .ok bs → bs.length = l.length := by
  induction l with
  | nil =>
    intro start bs h
    cases h
    rfl
  | cons a l ih =>
    intro start bs h
    obtain ⟨b, rest, -, hrest, rfl⟩ := mapIndexed_cons.1 h
    rw [List.length_cons, List.length_cons, ih hrest]

theorem isEmpty_mapIndexed {ε α β : Type} {f : Nat → α → Except ε β} {start : Nat} {l : List α} {bs : List β}
    (h : mapIndexed f start l = .ok bs) : bs.isEmpty = l.isEmpty := by
  cases l with
  | nil =>
    cases h
    rfl
  | cons a l =>
    obtain ⟨b, rest, -, -, rfl⟩ := mapIndexed_cons.1 h
    rfl

/-- What was read at a position, was read there. -/
theorem getElem?_mapIndexed {ε α β : Type} {f : Nat → α → Except ε β} {l : List α} :
    ∀ {start : Nat} {bs : List β}, mapIndexed f start l = .ok bs → ∀ {i : Nat} {b : β}, bs[i]? = some b →
      ∃ a ∈ l, f (start + i) a = .ok b := by
  induction l with
  | nil =>
    intro start bs h i b hb
    cases h
    cases hb
  | cons a l ih =>
    intro start bs h i b hb
    obtain ⟨b₀, rest, hb₀, hrest, rfl⟩ := mapIndexed_cons.1 h
    cases i with
    | zero =>
      cases hb
      exact ⟨a, List.mem_cons_self, hb₀⟩
    | succ i =>
      obtain ⟨a', ha', hf⟩ := ih hrest hb
      rw [Nat.add_assoc, Nat.add_comm 1 i] at hf
      exact ⟨a', List.mem_cons_of_mem _ ha', hf⟩

/-- A list that is read as it was written, item by item. -/
theorem mapIndexed_map {ε α β : Type} {f : Nat → α → Except ε β} {write : β → α} {bs : List β} :
    ∀ {start : Nat}, (∀ (i : Nat) (b : β), bs[i]? = some b → f (start + i) (write b) = .ok b) →
      mapIndexed f start (bs.map write) = .ok bs := by
  induction bs with
  | nil => exact fun _ => rfl
  | cons b bs ih =>
    intro start h
    refine mapIndexed_cons.2 ⟨b, bs, h 0 b rfl, ih (fun i b' hb' => ?_), rfl⟩
    rw [Nat.add_assoc, Nat.add_comm 1 i]
    exact h (i + 1) b' hb'

theorem Settles.mapIndexed {ε α β : Type} {first second : Nat → α → Except ε β} {write : β → α}
    (h : ∀ i, Settles (first i) (second i) write) {l : List α} {start : Nat} {bs : List β}
    (hbs : mapIndexed first start l = .ok bs) : mapIndexed second start (bs.map write) = .ok bs :=
  mapIndexed_map (fun i b hb => by
    obtain ⟨a, -, ha⟩ := getElem?_mapIndexed hbs hb
    exact h _ a b ha)
