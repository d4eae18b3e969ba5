import AdgLang.Contracts
/-!
# Connectives — what stands in a sentence position

A connector or an interrogative particle asks of some operands that they be sentences, by their shapes.  Every connected
sentence claims the sentence shape, whatever it joins, so a coordination, a conditional or an explanation of verbless
phrases passes for a sentence.  In an accepted tree every sentence position holds a verb exactly when no such connection
stands in one (`sentenceOperands_hasVerb_iff`).
-/
namespace Adg

/-- The operands that the contracts require to be sentences. -/
def Node.sentenceOperands : Node → List Node
  | .connectedSentence left connector right =>
    match connector.role with
    | .sequenceConnector | .immediateConnector | .contrastConnector => [left, right]
    | .causalConnector => [left]
    | _ => []
  | .operatorApplication operator target => if operator.role = .interrogativeOperator then [target] else []
  | _ => []

/-- The rendered words include a verb. -/
def Node.hasVerb (n : Node) : Bool := n.renderWords.any (fun w => decide (w.kind = .fil))

mutual

/-- A tree without a verbal sentence and without a verb among its words. -/
def Node.verbless : Node → Bool
  | .word w => decide (w.kind ≠ .fil)
  | .verbalSentence _ _ _ _ => false
  | .idafaPhrase _ _ => true
  | .harfGovernance _ operand => operand.verbless
  | .connectedSentence left _ right => left.verbless && right.verbless
  | .operatorApplication _ target => target.verbless
  | .clause parts => verblessAll parts

def Node.verblessAll : List Node → Bool
  | [] => true
  | n :: ns => n.verbless && verblessAll ns

end

/-- Beneath negations and questions, a coordination, a conditional or an explanation of two verbless phrases. -/
def Node.joinsNouns : Node → Bool
  | .connectedSentence left connector right =>
    decide (connector.role ∈ [.coordinationConnector, .conditionalConnector, .explanatoryConnector]) &&
      (left.verbless && right.verbless)
  | .operatorApplication _ target => target.joinsNouns
  | _ => false

/-! ## Verbs of built trees -/

theorem renderAll_hasVerb : ∀ ns : List Node, (∀ n ∈ ns, n.hasVerb = !n.verbless) →
    (Node.renderAll ns).any (fun w => decide (w.kind = .fil)) = !Node.verblessAll ns
  | [], _ => rfl
  | n :: ns, h => by
    have hn : n.renderWords.any (fun w => decide (w.kind = .fil)) = !n.verbless := h n List.mem_cons_self
    rw [Node.renderAll, List.any_append, hn, renderAll_hasVerb ns (fun m hm => h m (List.mem_cons_of_mem _ hm)),
      Node.verblessAll, Bool.not_and]

/-- **A built tree has a verb or is verbless.** -/
theorem Node.Built.hasVerb_eq {n : Node} (h : n.Built) : n.hasVerb = !n.verbless := by
  induction h with
  | @word _ _ _ _ w h => simp [Node.hasVerb, Node.renderWords, Node.verbless]
  | verbalSentence _ _ _ _ h =>
    obtain ⟨rfl, hverb, -, -⟩ := newVerbalSentence_eq_ok h
    simp [Node.hasVerb, Node.renderWords, Node.verbless, hverb]
  | idafaPhrase _ _ h =>
    obtain ⟨rfl, hmudaf, hilayh⟩ := newIdafaPhrase_eq_ok h
    simp [Node.hasVerb, Node.renderWords, Node.verbless, hmudaf, hilayh.1]
  | harfGovernance _ _ h _ ih =>
    obtain ⟨rfl, hop, -, -⟩ := newHarfGovernance_eq_ok h
    rw [Node.verbless, ← ih]
    simp [Node.hasVerb, Node.renderWords, hop]
  | connectedSentence _ _ _ h ihl _ ihr =>
    obtain ⟨rfl, ⟨hconn, -⟩, -⟩ := newConnectedSentence_eq_ok h
    rw [Node.verbless, Bool.not_and, ← ihl, ← ihr]
    simp [Node.hasVerb, Node.renderWords, hconn]
  | operatorApplication _ _ h _ ih =>
    obtain ⟨rfl, ⟨hop, -⟩, -⟩ := newOperatorApplication_eq_ok h
    rw [Node.verbless, ← ih]
    simp [Node.hasVerb, Node.renderWords, hop]
  | @clause parts _ _ h ih =>
    obtain ⟨rfl, -⟩ := newClause_eq_ok h
    rw [Node.verbless, Node.hasVerb, Node.renderWords, renderAll_hasVerb parts ih]

/-! ## Sentence positions -/

/-- The shape a sentence position is checked for, at the least. -/
def Node.eventful (n : Node) : Prop := n.shapes &&& (.sentence ||| .event) ≠ 0

theorem not_eventful {n : Node} {s : NodeShape} (hs : n.shapes = s) (h : s &&& (.sentence ||| .event) = 0) :
    ¬ n.eventful := by
  unfold Node.eventful
  rw [hs, h]
  exact not_not.2 rfl

theorem eventful_of_sentence {n : Node} (h : n.shapes &&& .sentence ≠ 0) : n.eventful := by
  unfold Node.eventful
  generalize n.shapes = s at *
  revert s
  decide

theorem requireShape_eq_ok {connector : Word} {node : Node} {required : NodeShape} {side label : Text} {u : Unit} :
    requireShape connector node required side label = .ok u ↔ node.shapes &&& required ≠ 0 := by
  simp [requireShape]

theorem eventful_of_validateOperands {left right : Node} {connector : Word}
    (h : validateOperands left connector right = .ok ()) :
    ∀ o ∈ (Node.connectedSentence left connector right).sentenceOperands, o.eventful := by
  intro o ho
  simp only [Node.sentenceOperands] at ho
  unfold validateOperands at h
  cases hr : connector.role <;> rw [hr] at ho h <;> simp only [bind_eq_ok, requireShape_eq_ok] at h <;>
    simp only [List.mem_cons, List.not_mem_nil, or_false] at ho
  · obtain ⟨_, hl, hr⟩ := h
    rcases ho with rfl | rfl
    · exact hl
    · exact hr
  · obtain ⟨_, hl, hr⟩ := h
    rcases ho with rfl | rfl
    · exact hl
    · exact hr
  · obtain ⟨_, hl, hr⟩ := h
    rcases ho with rfl | rfl
    · exact eventful_of_sentence hl
    · exact eventful_of_sentence hr
  · subst ho
    exact eventful_of_sentence h.choose_spec.1

theorem eventful_of_validateTarget {operator : Word} {target : Node} (h : validateTarget operator target = .ok ()) :
    ∀ o ∈ (Node.operatorApplication operator target).sentenceOperands, o.eventful := by
  intro o ho
  simp only [Node.sentenceOperands] at ho
  split at ho
  · rename_i hr
    rw [List.mem_singleton.1 ho]
    unfold validateTarget at h
    rw [hr] at h
    exact eventful_of_sentence (throwIf_eq_ok.1 h)
  · cases ho

/-- A sentence position of a tree: the operand is built, has passed the check, and lies in the tree. -/
structure Node.Position (n o : Node) : Prop where
  built : o.Built
  eventful : o.eventful
  inside : ∀ m ∈ o.subnodes, m ∈ n.subnodes

theorem Node.Position.mono {n n' o : Node} (h : n.Position o) (hsub : ∀ m ∈ n.subnodes, m ∈ n'.subnodes) :
    n'.Position o :=
  ⟨h.built, h.eventful, fun m hm => hsub m (h.inside m hm)⟩

/-- **Every operand that must be a sentence is a sentence position of the tree.** -/
theorem Node.Built.position {n : Node} (h : n.Built) : ∀ m ∈ n.subnodes, ∀ o ∈ m.sentenceOperands, n.Position o := by
  induction h with
  | word h =>
    intro m hm o ho
    simp only [Node.subnodes, List.mem_singleton] at hm
    subst hm; cases ho
  | verbalSentence _ _ _ _ h _ _ _ ih =>
    obtain ⟨rfl, -⟩ := newVerbalSentence_eq_ok h
    intro m hm o ho
    simp only [Node.subnodes, List.mem_cons, List.mem_append, List.mem_map, mem_subnodesAll] at hm
    rcases hm with rfl | rfl | rfl | ⟨w, -, rfl⟩ | ⟨a, ha, hm⟩
    · cases ho
    · cases ho
    · cases ho
    · cases ho
    · refine (ih a ha m hm o ho).mono (fun x hx => ?_)
      simp only [Node.subnodes, List.mem_cons, List.mem_append, mem_subnodesAll]
      exact .inr (.inr (.inr (.inr ⟨a, ha, hx⟩)))
  | idafaPhrase _ _ h =>
    obtain ⟨rfl, -⟩ := newIdafaPhrase_eq_ok h
    intro m hm o ho
    simp only [Node.subnodes, List.mem_cons, List.not_mem_nil, or_false] at hm
    rcases hm with rfl | rfl | rfl <;> cases ho
  | harfGovernance _ _ h _ ih =>
    obtain ⟨rfl, -⟩ := newHarfGovernance_eq_ok h
    intro m hm o ho
    simp only [Node.subnodes, List.mem_cons] at hm
    rcases hm with rfl | rfl | hm
    · cases ho
    · cases ho
    · exact (ih m hm o ho).mono (fun x hx => by simp only [Node.subnodes, List.mem_cons]; exact .inr (.inr hx))
  | @connectedSentence left right n connector hleft _ hright h ihl _ ihr =>
    obtain ⟨rfl, -, hoperands⟩ := newConnectedSentence_eq_ok h
    have hl : ∀ x ∈ left.subnodes, x ∈ (Node.connectedSentence left connector right).subnodes := fun x hx => by
      simp only [Node.subnodes, List.mem_cons, List.mem_append]; exact .inr (.inr (.inl hx))
    have hr : ∀ x ∈ right.subnodes, x ∈ (Node.connectedSentence left connector right).subnodes := fun x hx => by
      simp only [Node.subnodes, List.mem_cons, List.mem_append]; exact .inr (.inr (.inr hx))
    intro m hm o ho
    simp only [Node.subnodes, List.mem_cons, List.mem_append] at hm
    rcases hm with rfl | rfl | hm | hm
    · have hev := eventful_of_validateOperands hoperands o ho
      have ho : o = left ∨ o = right := by
        simp only [Node.sentenceOperands] at ho
        split at ho <;> simp only [List.mem_cons, List.not_mem_nil, or_false] at ho
        · exact ho
        · exact ho
        · exact ho
        · exact .inl ho
      rcases ho with rfl | rfl
      · exact ⟨hleft, hev, hl⟩
      · exact ⟨hright, hev, hr⟩
    · cases ho
    · exact (ihl m hm o ho).mono hl
    · exact (ihr m hm o ho).mono hr
  | @operatorApplication operator target n _ htarget h _ ih =>
    obtain ⟨rfl, -, hcheck⟩ := newOperatorApplication_eq_ok h
    have ht : ∀ x ∈ target.subnodes, x ∈ (Node.operatorApplication operator target).subnodes := fun x hx => by
      simp only [Node.subnodes, List.mem_cons]; exact .inr (.inr hx)
    intro m hm o ho
    simp only [Node.subnodes, List.mem_cons] at hm
    rcases hm with rfl | rfl | hm
    · have hev := eventful_of_validateTarget hcheck o ho
      simp only [Node.sentenceOperands] at ho
      split at ho
      · rw [List.mem_singleton.1 ho] at hev ⊢
        exact ⟨htarget, hev, ht⟩
      · cases ho
    · cases ho
    · exact (ih m hm o ho).mono ht
  | @clause parts n _ h ih =>
    obtain ⟨rfl, -⟩ := newClause_eq_ok h
    intro m hm o ho
    simp only [Node.subnodes, List.mem_cons, mem_subnodesAll] at hm
    rcases hm with rfl | ⟨p, hp, hm⟩
    · cases ho
    · refine (ih p hp m hm o ho).mono (fun x hx => ?_)
      simp only [Node.subnodes, List.mem_cons, mem_subnodesAll]
      exact .inr ⟨p, hp, hx⟩

theorem verbless_of_joinsNouns : ∀ {n : Node}, n.joinsNouns = true → n.verbless = true
  | .connectedSentence left connector right, h => by
    rw [Node.joinsNouns, Bool.and_eq_true] at h
    rw [Node.verbless]; exact h.2
  | .operatorApplication operator target, h => by
    rw [Node.joinsNouns] at h
    rw [Node.verbless]; exact verbless_of_joinsNouns h
  | .word _, h | .verbalSentence _ _ _ _, h | .idafaPhrase _ _, h | .harfGovernance _ _, h | .clause _, h => by
    simp [Node.joinsNouns] at h

/-- **A sentence position that joins no nouns holds a verb**, where the same is true of the positions inside it. -/
theorem Node.Built.not_verbless {n : Node} (h : n.Built) : n.eventful → n.joinsNouns = false →
    (∀ m ∈ n.subnodes, ∀ o ∈ m.sentenceOperands, o.joinsNouns = false) → n.verbless = false := by
  induction h with
  | @word _ _ _ _ w h =>
    intro hev _ _
    simp only [Node.verbless, decide_eq_false_iff_not, not_not]
    cases hk : w.kind
    · exact (not_eventful (s := .token ||| .object) (by rw [Node.shapes, Word.shapes, hk]) (by decide) hev).elim
    · rfl
    · exact (not_eventful (s := .token) (by rw [Node.shapes, Word.shapes, hk]) (by decide) hev).elim
  | verbalSentence _ _ _ _ h =>
    intro _ _ _
    rw [(newVerbalSentence_eq_ok h).1]; rfl
  | idafaPhrase _ _ h =>
    intro hev _ _
    rw [(newIdafaPhrase_eq_ok h).1] at hev; exact (not_eventful (s := .phrase ||| .object) rfl (by decide) hev).elim
  | harfGovernance _ _ h =>
    intro hev _ _
    rw [(newHarfGovernance_eq_ok h).1] at hev; exact (not_eventful (s := .phrase) rfl (by decide) hev).elim
  | @connectedSentence left right n connector hleft _ _ h ihl =>
    obtain ⟨rfl, ⟨-, hrole⟩, hoperands⟩ := newConnectedSentence_eq_ok h
    intro _ hjoins hinside
    have hev := eventful_of_validateOperands hoperands
    have hself := hinside _ (Node.self_mem_subnodes _)
    have hl : ∀ m ∈ left.subnodes, ∀ o ∈ m.sentenceOperands, o.joinsNouns = false := fun m hm => hinside m (by
      simp only [Node.subnodes, List.mem_cons, List.mem_append]; exact .inr (.inr (.inl hm)))
    rw [Node.verbless]
    -- a connector that asks for a sentence on its left finds a verb there; the others are judged by `joinsNouns`
    cases hr : connector.role <;> rw [hr] at hrole <;>
      simp only [Node.sentenceOperands, hr, List.mem_cons, List.not_mem_nil, or_false] at hev hself <;>
      simp only [Node.joinsNouns, hr] at hjoins <;> first
        | cases hrole; done
        | simpa using hjoins
        | rw [ihl (hev left (by simp)) (hself left (by simp)) hl, Bool.false_and]
  | operatorApplication _ _ h _ ih =>
    obtain ⟨rfl, -, -⟩ := newOperatorApplication_eq_ok h
    intro hev hjoins hinside
    exact ih hev hjoins (fun m hm => hinside m (by
      simp only [Node.subnodes, List.mem_cons]; exact .inr (.inr hm)))
  | clause _ h =>
    intro hev _ _
    rw [(newClause_eq_ok h).1] at hev; exact (not_eventful (s := .clause) rfl (by decide) hev).elim

/-! ## Accepted trees -/

/-- A tree that one of the parsers returns. -/
def Accepted (n : Node) : Prop :=
  (∃ j, JsonParser.parse j = .ok n) ∨ ∃ lines, SurfaceParser.parseFile lines = .ok n

theorem Accepted.built {n : Node} (h : Accepted n) : n.Built := by
  rcases h with ⟨j, h⟩ | ⟨lines, h⟩
  · exact JsonParser.parse_built h
  · exact SurfaceParser.parseFile_built h

/-- **Every sentence position of an accepted tree holds a verb exactly when none joins nouns.** -/
theorem sentenceOperands_hasVerb_iff {n : Node} (h : Accepted n) :
    (∀ m ∈ n.subnodes, ∀ o ∈ m.sentenceOperands, o.hasVerb = true) ↔
      ∀ m ∈ n.subnodes, ∀ o ∈ m.sentenceOperands, o.joinsNouns = false := by
  have hpos := h.built.position
  constructor
  · intro hverb m hm o ho
    have hv := hverb m hm o ho
    rw [(hpos m hm o ho).built.hasVerb_eq, Bool.not_eq_true'] at hv
    rw [← Bool.not_eq_true]
    intro hjoins
    rw [verbless_of_joinsNouns hjoins] at hv; cases hv
  · intro hjoins m hm o ho
    obtain ⟨hbuilt, hev, hinside⟩ := hpos m hm o ho
    rw [hbuilt.hasVerb_eq, hbuilt.not_verbless hev (hjoins m hm o ho) (fun x hx => hjoins x (hinside x hx))]
    rfl

theorem sentenceOperands_hasVerb_question :
    (∀ m ∈ (valueOf (JsonParser.parse questionDocument) (by decide)).subnodes, ∀ o ∈ m.sentenceOperands,
        o.hasVerb = true) ↔
      ∀ m ∈ (valueOf (JsonParser.parse questionDocument) (by decide)).subnodes, ∀ o ∈ m.sentenceOperands,
        o.joinsNouns = false :=
  sentenceOperands_hasVerb_iff (.inl ⟨questionDocument, eq_ok_valueOf _⟩)

def nounDocument (surface : Text) : Json :=
  .object [("kind".toList, .string "ism".toList), ("surface".toList, .string surface)]

/-- A verbal sentence, then a coordination of two nouns. -/
def sequenceDocument : Json :=
  .object [("kind".toList, .string "connected".toList), ("connector".toList, .string "ثم".toList),
    ("left".toList, .object [("kind".toList, .string "verbal".toList), ("verb".toList, .string "كتب".toList),
      ("agent".toList, .string "زيد".toList)]),
    ("right".toList, .object [("kind".toList, .string "connected".toList), ("connector".toList, .string "و".toList),
      ("left".toList, nounDocument "زيد".toList), ("right".toList, nounDocument "عمرو".toList)])]

/-- **Two nouns joined by a coordinator pass for a sentence.** -/
theorem not_sentenceOperands_hasVerb :
    ¬ ∀ n, Accepted n → ∀ m ∈ n.subnodes, ∀ o ∈ m.sentenceOperands, o.hasVerb = true := by
  intro h
  have hok : (JsonParser.parse sequenceDocument).isOk = true := by decide
  have hall := h _ (.inl ⟨sequenceDocument, eq_ok_valueOf hok⟩)
  have hnot : ¬ ∀ m ∈ (valueOf (JsonParser.parse sequenceDocument) (by decide)).subnodes,
      ∀ o ∈ m.sentenceOperands, o.hasVerb = true := by decide
  exact hnot hall

end Adg
