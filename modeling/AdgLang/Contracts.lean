import AdgLang.JsonParser
import AdgLang.SurfaceParser
/-!
# Contracts — every parsed tree satisfies the i'rab contracts

`Node.Contract` is the rule table, for one node; `Node.subnodes` are the nodes of a tree at any depth, words included.
A constructor that returns has checked its contract (`newVerbalSentence_eq_ok` and its siblings), so a tree built by
constructors alone is verified throughout, and both parsers build by constructors alone (`parse_verified`,
`parseFile_verified`).
-/
namespace Adg

open TypeContracts

/-! ## The rule table -/

/-- The cases a word may carry. -/
structure Word.Legal (w : Word) : Prop where
  surface : isNullOrWhiteSpace w.surface = false
  ism : w.kind = .ism → w.marker ≠ .jazm
  fil : w.kind = .fil → w.marker = .none ∨ w.marker = .jazm
  harf : w.kind = .harf → w.marker = .none

def Word.IsIsm (w : Word) (marker : AdgCase) : Prop := w.kind = .ism ∧ w.marker = marker

/-- A word or phrase that bears the case a particle assigns. -/
def Node.Bears (marker : AdgCase) : Node → Prop
  | .word w => (w.kind = .ism ∨ (w.kind = .fil ∧ marker = .jazm)) ∧ w.marker = marker
  | .idafaPhrase mudaf mudafIlayh => marker = .jarr ∧ mudaf.marker = .jarr ∧ mudafIlayh.marker = .jarr
  | _ => False

/-- **The rule table**, for one node. -/
def Node.Contract : Node → Prop
  | .word w => w.Legal
  | .verbalSentence verb fail maful _ => verb.kind = .fil ∧ fail.IsIsm .raf ∧ ∀ w ∈ maful, w.IsIsm .nasb
  | .idafaPhrase mudaf mudafIlayh => mudaf.kind = .ism ∧ mudafIlayh.IsIsm .jarr
  | .harfGovernance operator operand =>
    operator.kind = .harf ∧ operator.role.isCaseOperator = true ∧ operand.Bears operator.role.resultingCase
  | .connectedSentence _ connector _ => connector.kind = .harf ∧ connector.role.isConnector = true
  | .operatorApplication operator _ =>
    operator.kind = .harf ∧ (operator.role = .negationOperator ∨ operator.role = .interrogativeOperator)
  | .clause parts => parts ≠ []

mutual

/-- The nodes of a tree at any depth, the words it consists of included. -/
def Node.subnodes : Node → List Node
  | .word w => [.word w]
  | .verbalSentence verb fail maful adjuncts => .verbalSentence verb fail maful adjuncts :: .word verb :: .word fail ::
      (maful.toList.map Node.word ++ subnodesAll adjuncts)
  | .idafaPhrase mudaf mudafIlayh => [.idafaPhrase mudaf mudafIlayh, .word mudaf, .word mudafIlayh]
  | .harfGovernance operator operand => .harfGovernance operator operand :: .word operator :: operand.subnodes
  | .connectedSentence left connector right => .connectedSentence left connector right :: .word connector ::
      (left.subnodes ++ right.subnodes)
  | .operatorApplication operator target => .operatorApplication operator target :: .word operator :: target.subnodes
  | .clause parts => .clause parts :: subnodesAll parts

def Node.subnodesAll : List Node → List Node
  | [] => []
  | n :: ns => n.subnodes ++ subnodesAll ns

end

attribute [grind =] Node.subnodes Node.subnodesAll

/-- Every node of the tree satisfies the rule table. -/
def Node.Verified (n : Node) : Prop := ∀ m ∈ n.subnodes, m.Contract

theorem mem_subnodesAll {m : Node} : ∀ {ns : List Node}, m ∈ Node.subnodesAll ns ↔ ∃ n ∈ ns, m ∈ n.subnodes
  | [] => by simp [Node.subnodesAll]
  | n :: ns => by simp [Node.subnodesAll, @mem_subnodesAll m ns]

theorem Node.self_mem_subnodes (n : Node) : n ∈ n.subnodes := by
  cases n <;> simp [Node.subnodes]

theorem Node.Verified.contract {n : Node} (h : n.Verified) : n.Contract := h n n.self_mem_subnodes

mutual

/-- The words rendered are nodes of the tree. -/
theorem word_mem_subnodes {w : Word} : ∀ {n : Node}, w ∈ n.renderWords → Node.word w ∈ n.subnodes
  | .word v, h => by
    rw [List.mem_singleton.1 h]; exact List.mem_singleton_self _
  | .verbalSentence verb fail maful adjuncts, h => by
    have hadjuncts : w ∈ Node.renderAll adjuncts → Node.word w ∈ Node.subnodesAll adjuncts := word_mem_subnodesAll
    simp only [Node.renderWords, List.mem_append, List.mem_cons] at h
    simp only [Node.subnodes, List.mem_cons, List.mem_append, List.mem_map, Node.word.injEq]
    grind
  | .idafaPhrase mudaf mudafIlayh, h => by
    simp only [Node.renderWords, List.mem_cons] at h
    simp only [Node.subnodes, List.mem_cons, Node.word.injEq]
    grind
  | .harfGovernance operator operand, h => by
    have hoperand : w ∈ operand.renderWords → Node.word w ∈ operand.subnodes := word_mem_subnodes
    simp only [Node.renderWords, List.mem_cons] at h
    simp only [Node.subnodes, List.mem_cons, Node.word.injEq]
    grind
  | .connectedSentence left connector right, h => by
    have hleft : w ∈ left.renderWords → Node.word w ∈ left.subnodes := word_mem_subnodes
    have hright : w ∈ right.renderWords → Node.word w ∈ right.subnodes := word_mem_subnodes
    simp only [Node.renderWords, List.mem_append, List.mem_cons] at h
    simp only [Node.subnodes, List.mem_cons, List.mem_append, Node.word.injEq]
    grind
  | .operatorApplication operator target, h => by
    have htarget : w ∈ target.renderWords → Node.word w ∈ target.subnodes := word_mem_subnodes
    simp only [Node.renderWords, List.mem_cons] at h
    simp only [Node.subnodes, List.mem_cons, Node.word.injEq]
    grind
  | .clause parts, h => List.mem_cons_of_mem _ (word_mem_subnodesAll h)

theorem word_mem_subnodesAll {w : Word} : ∀ {ns : List Node}, w ∈ Node.renderAll ns →
    Node.word w ∈ Node.subnodesAll ns
  | [], h => by cases h
  | n :: ns, h => by
    rw [Node.renderAll, List.mem_append] at h
    rw [Node.subnodesAll, List.mem_append]
    rcases h with h | h
    · exact .inl (word_mem_subnodes h)
    · exact .inr (word_mem_subnodesAll h)

end

/-! ## What a constructor checks -/

theorem Word.create_eq_ok {surface : Text} {kind : TokenKind} {marker : AdgCase} {role : HarfRole} {w : Word}
    (h : Word.create surface kind marker role = .ok w) : w = ⟨surface, kind, marker, role⟩ ∧ w.Legal := by
  simp only [Word.create, Word.validate, bind_eq_ok, throwIf_eq_ok] at h
  obtain ⟨_, hsurface, _, ⟨_, hism, _, hfil, hharf⟩, hw⟩ := h
  cases hw
  refine ⟨rfl, Bool.eq_false_iff.2 hsurface, fun hk hm => hism ⟨hk, hm⟩, fun hk => ?_, fun hk => ?_⟩
  · have hno : ¬(marker = .raf ∨ marker = .nasb ∨ marker = .jarr ∨ marker = .tanwin) := fun hm => hfil ⟨hk, hm⟩
    revert hno
    cases marker <;> simp
  · exact not_not.1 (fun hm => hharf ⟨hk, hm⟩)

@[simp] theorem requireKind_eq_ok {w : Word} {kind : TokenKind} {contract : Text} {u : Unit} :
    requireKind w kind contract = .ok u ↔ w.kind = kind := by
  simp [requireKind]

@[simp] theorem requireIsmCase_eq_ok {w : Word} {marker : AdgCase} {contract : Text} {u : Unit} :
    requireIsmCase w marker contract = .ok u ↔ w.IsIsm marker := by
  simp [requireIsmCase, Word.IsIsm]

theorem nodeAcceptsCase_iff {n : Node} {marker : AdgCase} : nodeAcceptsCase n marker = true ↔ n.Bears marker := by
  cases n with
  | word w =>
    cases hk : w.kind <;> simp [nodeAcceptsCase, Node.Bears, hk, and_comm]
  | idafaPhrase mudaf mudafIlayh => simp [nodeAcceptsCase, Node.Bears]
  | _ => simp [nodeAcceptsCase, Node.Bears]

theorem newVerbalSentence_eq_ok {verb fail : Word} {maful : Option Word} {adjuncts : List Node} {n : Node}
    (h : newVerbalSentence verb fail maful adjuncts = .ok n) :
    n = .verbalSentence verb fail maful adjuncts ∧ n.Contract := by
  simp only [newVerbalSentence, bind_eq_ok, requireKind_eq_ok, requireIsmCase_eq_ok] at h
  obtain ⟨_, hverb, _, hfail, h⟩ := h
  cases maful with
  | none =>
    rw [pure_eq_ok] at h
    subst h
    exact ⟨rfl, hverb, hfail, fun _ hw => by cases hw⟩
  | some maful =>
    simp only [bind_eq_ok, requireIsmCase_eq_ok, pure_eq_ok] at h
    obtain ⟨_, hmaful, rfl⟩ := h
    refine ⟨rfl, hverb, hfail, fun w hw => ?_⟩
    cases hw; exact hmaful

theorem newIdafaPhrase_eq_ok {mudaf mudafIlayh : Word} {n : Node} (h : newIdafaPhrase mudaf mudafIlayh = .ok n) :
    n = .idafaPhrase mudaf mudafIlayh ∧ n.Contract := by
  simp only [newIdafaPhrase, bind_eq_ok, requireKind_eq_ok, requireIsmCase_eq_ok, pure_eq_ok] at h
  obtain ⟨_, hmudaf, _, hilayh, rfl⟩ := h
  exact ⟨rfl, hmudaf, hilayh⟩

theorem newHarfGovernance_eq_ok {operator : Word} {operand n : Node} (h : newHarfGovernance operator operand = .ok n) :
    n = .harfGovernance operator operand ∧ n.Contract := by
  simp only [newHarfGovernance, bind_eq_ok, requireKind_eq_ok, throwIf_eq_ok, pure_eq_ok, Bool.not_eq_true',
    Bool.not_eq_false] at h
  obtain ⟨_, hkind, _, hrole, _, haccepts, rfl⟩ := h
  exact ⟨rfl, hkind, hrole, nodeAcceptsCase_iff.1 haccepts⟩

theorem newConnectedSentence_eq_ok {left right n : Node} {connector : Word}
    (h : newConnectedSentence left connector right = .ok n) :
    n = .connectedSentence left connector right ∧ n.Contract ∧ validateOperands left connector right = .ok () := by
  simp only [newConnectedSentence, bind_eq_ok, requireKind_eq_ok, throwIf_eq_ok, pure_eq_ok, Bool.not_eq_true',
    Bool.not_eq_false] at h
  obtain ⟨_, hkind, _, hrole, _, hoperands, rfl⟩ := h
  exact ⟨rfl, ⟨hkind, hrole⟩, hoperands⟩

theorem newOperatorApplication_eq_ok {operator : Word} {target n : Node}
    (h : newOperatorApplication operator target = .ok n) :
    n = .operatorApplication operator target ∧ n.Contract ∧ validateTarget operator target = .ok () := by
  simp only [newOperatorApplication, bind_eq_ok, requireKind_eq_ok, throwIf_eq_ok, pure_eq_ok] at h
  obtain ⟨_, hkind, _, hrole, _, htarget, rfl⟩ := h
  refine ⟨rfl, ⟨hkind, ?_⟩, htarget⟩
  by_contra hno
  exact hrole (not_or.1 hno)

theorem newClause_eq_ok {parts : List Node} {n : Node} (h : newClause parts = .ok n) :
    n = .clause parts ∧ n.Contract := by
  simp only [newClause, bind_eq_ok, throwIf_eq_ok, pure_eq_ok] at h
  obtain ⟨_, hne, rfl⟩ := h
  exact ⟨rfl, fun hnil => hne (by rw [hnil]; rfl)⟩

/-! ## Trees built by constructors

A property of trees that every constructor passes on holds of every tree the parsers build; `Built` is the least such
property. -/

/-- The trees that the constructors build. -/
inductive Node.Built : Node → Prop
  | word {surface : Text} {kind : TokenKind} {marker : AdgCase} {role : HarfRole} {w : Word}
    (h : Word.create surface kind marker role = .ok w) : Built (.word w)
  | verbalSentence {verb fail : Word} {maful : Option Word} {adjuncts : List Node} {n : Node}
    (hverb : Built (.word verb)) (hfail : Built (.word fail)) (hmaful : ∀ w ∈ maful, Built (.word w))
    (hadjuncts : ∀ a ∈ adjuncts, Built a) (h : newVerbalSentence verb fail maful adjuncts = .ok n) : Built n
  | idafaPhrase {mudaf mudafIlayh : Word} {n : Node} (hmudaf : Built (.word mudaf)) (hilayh : Built (.word mudafIlayh))
    (h : newIdafaPhrase mudaf mudafIlayh = .ok n) : Built n
  | harfGovernance {operator : Word} {operand n : Node} (hop : Built (.word operator)) (hoperand : Built operand)
    (h : newHarfGovernance operator operand = .ok n) : Built n
  | connectedSentence {left right n : Node} {connector : Word} (hleft : Built left) (hconn : Built (.word connector))
    (hright : Built right) (h : newConnectedSentence left connector right = .ok n) : Built n
  | operatorApplication {operator : Word} {target n : Node} (hop : Built (.word operator)) (htarget : Built target)
    (h : newOperatorApplication operator target = .ok n) : Built n
  | clause {parts : List Node} {n : Node} (hparts : ∀ p ∈ parts, Built p) (h : newClause parts = .ok n) : Built n

/-- **A tree built by constructors satisfies the rule table at every node.** -/
theorem Node.Built.verified {n : Node} (h : n.Built) : n.Verified := by
  induction h with
  | word h =>
    intro m hm
    simp only [Node.subnodes, List.mem_singleton] at hm
    subst hm
    exact (Word.create_eq_ok h).2
  | verbalSentence _ _ _ _ h hverb hfail hmaful hadjuncts =>
    obtain ⟨rfl, hcontract⟩ := newVerbalSentence_eq_ok h
    intro m hm
    simp only [Node.subnodes, List.mem_cons, List.mem_append, List.mem_map, Option.mem_toList, mem_subnodesAll] at hm
    rcases hm with rfl | rfl | rfl | ⟨w, hw, rfl⟩ | ⟨a, ha, hm⟩
    · exact hcontract
    · exact hverb.contract
    · exact hfail.contract
    · exact (hmaful w hw).contract
    · exact hadjuncts a ha m hm
  | idafaPhrase _ _ h hmudaf hilayh =>
    obtain ⟨rfl, hcontract⟩ := newIdafaPhrase_eq_ok h
    intro m hm
    simp only [Node.subnodes, List.mem_cons, List.not_mem_nil, or_false] at hm
    rcases hm with rfl | rfl | rfl
    · exact hcontract
    · exact hmudaf.contract
    · exact hilayh.contract
  | harfGovernance _ _ h hop hoperand =>
    obtain ⟨rfl, hcontract⟩ := newHarfGovernance_eq_ok h
    intro m hm
    simp only [Node.subnodes, List.mem_cons] at hm
    rcases hm with rfl | rfl | hm
    · exact hcontract
    · exact hop.contract
    · exact hoperand m hm
  | connectedSentence _ _ _ h hleft hconn hright =>
    obtain ⟨rfl, hcontract, -⟩ := newConnectedSentence_eq_ok h
    intro m hm
    simp only [Node.subnodes, List.mem_cons, List.mem_append] at hm
    rcases hm with rfl | rfl | hm | hm
    · exact hcontract
    · exact hconn.contract
    · exact hleft m hm
    · exact hright m hm
  | operatorApplication _ _ h hop htarget =>
    obtain ⟨rfl, hcontract, -⟩ := newOperatorApplication_eq_ok h
    intro m hm
    simp only [Node.subnodes, List.mem_cons] at hm
    rcases hm with rfl | rfl | hm
    · exact hcontract
    · exact hop.contract
    · exact htarget m hm
  | clause _ h hparts =>
    obtain ⟨rfl, hcontract⟩ := newClause_eq_ok h
    intro m hm
    simp only [Node.subnodes, List.mem_cons, mem_subnodesAll] at hm
    rcases hm with rfl | ⟨p, hp, hm⟩
    · exact hcontract
    · exact hparts p hp m hm

/-! ## The JSON parser -/

section Words

variable {w : Word} {properties : List (Text × Json)}

theorem Word.built_ism {surface : Text} {marker : AdgCase} (h : Word.ism surface marker = .ok w) : (Node.word w).Built :=
  .word h

theorem Word.built_fil {surface : Text} {marker : AdgCase} (h : Word.fil surface marker = .ok w) : (Node.word w).Built :=
  .word h

theorem Word.built_harf {surface : Text} {role : HarfRole} (h : Word.harf surface role = .ok w) : (Node.word w).Built :=
  .word h

namespace JsonParser

theorem built_parseIsm (h : parseIsm properties = .ok w) : (Node.word w).Built := by
  simp only [parseIsm, bind_eq_ok] at h
  obtain ⟨_, -, _, -, h⟩ := h
  exact Word.built_ism h

theorem built_parseFil (h : parseFil properties = .ok w) : (Node.word w).Built := by
  simp only [parseFil, bind_eq_ok] at h
  obtain ⟨_, -, _, -, h⟩ := h
  exact Word.built_fil h

theorem built_parseHarf (h : parseHarf properties = .ok w) : (Node.word w).Built := by
  simp only [parseHarf, bind_eq_ok] at h
  obtain ⟨_, -, _, -, h⟩ := h
  exact Word.built_harf h

theorem built_parseKind {kind : TokenKind} (h : parseKind kind properties = .ok w) : (Node.word w).Built := by
  cases kind with
  | ism => exact built_parseIsm h
  | fil => exact built_parseFil h
  | harf => exact built_parseHarf h

theorem built_parseWord (h : parseWord properties = .ok w) : (Node.word w).Built := by
  simp only [parseWord, bind_eq_ok] at h
  obtain ⟨_, -, category, -, h⟩ := h
  exact built_parseKind h

theorem built_parseWordOrSurface {element : Json} {kind : TokenKind} {defaultCase : AdgCase}
    (h : parseWordOrSurface element kind defaultCase = .ok w) : (Node.word w).Built := by
  unfold parseWordOrSurface at h
  split at h
  · cases kind with
    | ism => exact Word.built_ism h
    | fil => exact Word.built_fil h
    | harf => exact Word.built_harf h
  · simp only [bind_eq_ok, pure_eq_ok] at h
    obtain ⟨word, hword, _, -, rfl⟩ := h
    split at hword
    · exact built_parseWord hword
    · exact built_parseKind hword
  · cases h

end JsonParser

end Words

namespace JsonParser

/-- What a result returns is built by constructors. -/
def ReturnsBuilt (r : Result) : Prop := ∀ n, r = .ok n → n.Built

section Nodes

variable {properties : Properties} (hprops : ∀ p ∈ properties, p.2.Holds ReturnsBuilt) {n : Node}

theorem getRequiredProperty_eq_ok {α : Type} {names : List Text} {properties : List (Text × α)} {a : α}
    (h : getRequiredProperty names properties = .ok a) : Json.lookupAny names properties = some a := by
  unfold getRequiredProperty at h
  split at h
  · rename_i hl
    rw [hl]; cases h; rfl
  · cases h

include hprops in
theorem holds_of_lookupAny {names : List Text} {e : Json.Element Result} (h : Json.lookupAny names properties = some e) :
    e.Holds ReturnsBuilt := by
  obtain ⟨name, hmem⟩ := Json.mem_of_lookupAny h
  exact hprops _ hmem

include hprops in
theorem built_required {names : List Text} {e : Json.Element Result}
    (h : getRequiredProperty names properties = .ok e) (hn : e.result = .ok n) : n.Built :=
  (holds_of_lookupAny hprops (getRequiredProperty_eq_ok h)).1 n hn

theorem built_parseItems {message : Text} {e : Json.Element Result} {ns : List Node} (he : e.Holds ReturnsBuilt)
    (h : parseItems message e = .ok ns) : ∀ n ∈ ns, n.Built := by
  unfold parseItems at h
  split at h
  · exact fun n hn => built_mapM he.2 h n hn
  · cases h
where
  built_mapM : ∀ {rs : List Result} {ns : List Node}, (∀ r ∈ rs, ReturnsBuilt r) → rs.mapM id = .ok ns →
      ∀ n ∈ ns, n.Built
    | [], ns, _, h, n, hn => by
      rw [List.mapM_nil, pure_eq_ok] at h
      subst h; cases hn
    | r :: rs, ns, hrs, h, n, hn => by
      simp only [List.mapM_cons, bind_eq_ok, pure_eq_ok, id] at h
      obtain ⟨m, hm, ms, hms, rfl⟩ := h
      rcases List.mem_cons.1 hn with rfl | hn
      · exact hrs r List.mem_cons_self n hm
      · exact built_mapM (fun x hx => hrs x (List.mem_cons_of_mem _ hx)) hms n hn

theorem built_parseParticle {elementNames surfaceNames : List Text} {defaultSurface : Text} {role : HarfRole} {w : Word}
    (h : parseParticle elementNames surfaceNames defaultSurface role properties = .ok w) : (Node.word w).Built := by
  unfold parseParticle at h
  split at h
  · exact built_parseWordOrSurface h
  · simp only [bind_eq_ok] at h
    obtain ⟨_, -, h⟩ := h
    exact Word.built_harf h

include hprops in
theorem built_parseVerbalSentence (h : parseVerbalSentence properties = .ok n) : n.Built := by
  simp only [parseVerbalSentence, bind_eq_ok] at h
  obtain ⟨_, -, verb, hverb, _, -, fail, hfail, maful, hmaful, adjuncts, hadjuncts, h⟩ := h
  refine .verbalSentence (built_parseWordOrSurface hverb) (built_parseWordOrSurface hfail) (fun w hw => ?_)
    (fun a ha => ?_) h
  · split at hmaful
    · simp only [map_eq_ok] at hmaful
      obtain ⟨word, hword, rfl⟩ := hmaful
      cases hw
      exact built_parseWordOrSurface hword
    · cases hmaful; cases hw
  · split at hadjuncts
    · rename_i hl
      exact built_parseItems (holds_of_lookupAny hprops hl) hadjuncts a ha
    · cases hadjuncts; cases ha

theorem built_parseIdafaPhrase (h : parseIdafaPhrase properties = .ok n) : n.Built := by
  simp only [parseIdafaPhrase, bind_eq_ok] at h
  obtain ⟨_, -, mudaf, hmudaf, _, -, mudafIlayh, hilayh, h⟩ := h
  exact .idafaPhrase (built_parseWordOrSurface hmudaf) (built_parseWordOrSurface hilayh) h

include hprops in
theorem built_parseHarfGovernance (h : parseHarfGovernance properties = .ok n) : n.Built := by
  simp only [parseHarfGovernance, bind_eq_ok] at h
  obtain ⟨_, -, operator, hop, e, he, operand, hoperand, h⟩ := h
  exact .harfGovernance (built_parseWordOrSurface hop) (built_required hprops he hoperand) h

include hprops in
theorem built_parseConnectedSentence (h : parseConnectedSentence properties = .ok n) : n.Built := by
  simp only [parseConnectedSentence, bind_eq_ok] at h
  obtain ⟨e, he, left, hleft, _, -, connector, hconn, h⟩ := h
  split at h
  · split at h <;> cases h
  · rename_i hl
    simp only [bind_eq_ok] at h
    obtain ⟨right, hright, h⟩ := h
    exact .connectedSentence (built_required hprops he hleft) (built_parseWordOrSurface hconn)
      ((holds_of_lookupAny hprops hl).1 right hright) h

include hprops in
theorem built_parseConditionalExpression (h : parseConditionalExpression properties = .ok n) : n.Built := by
  simp only [parseConditionalExpression, bind_eq_ok] at h
  obtain ⟨e, he, left, hleft, connector, hconn, _, -, h⟩ := h
  split at h
  · cases h
  · rename_i hl
    simp only [bind_eq_ok] at h
    obtain ⟨right, hright, h⟩ := h
    exact .connectedSentence (built_required hprops he hleft) (built_parseParticle hconn)
      ((holds_of_lookupAny hprops hl).1 right hright) h

include hprops in
theorem built_parseExplanatoryExpression (h : parseExplanatoryExpression properties = .ok n) : n.Built := by
  simp only [parseExplanatoryExpression, bind_eq_ok] at h
  obtain ⟨e, he, left, hleft, connector, hconn, _, -, h⟩ := h
  split at h
  · cases h
  · rename_i hl
    simp only [bind_eq_ok] at h
    obtain ⟨right, hright, h⟩ := h
    exact .connectedSentence (built_required hprops he hleft) (built_parseParticle hconn)
      ((holds_of_lookupAny hprops hl).1 right hright) h

include hprops in
theorem built_parseOperatorApplication {role : HarfRole} (h : parseOperatorApplication role properties = .ok n) :
    n.Built := by
  simp only [parseOperatorApplication, bind_eq_ok] at h
  obtain ⟨first, hfirst, operator, hop, _, -, h⟩ := h
  have hbuilt : (Node.word operator).Built := by
    split at hop
    · exact Word.built_harf hop
    · cases hop
      exact built_parseParticle hfirst
  split at h
  · split at h <;> cases h
  · rename_i hl
    simp only [bind_eq_ok] at h
    obtain ⟨target, htarget, h⟩ := h
    exact .operatorApplication hbuilt ((holds_of_lookupAny hprops hl).1 target htarget) h

include hprops in
theorem built_parseClause (h : parseClause properties = .ok n) : n.Built := by
  simp only [parseClause, bind_eq_ok] at h
  obtain ⟨e, he, parts, hparts, h⟩ := h
  exact .clause (built_parseItems (holds_of_lookupAny hprops (getRequiredProperty_eq_ok he)) hparts) h

include hprops in
theorem built_nodeKinds {raw : List (Text × Json)} {arm : List Text × (List (Text × Json) → Properties → Result)}
    (harm : arm ∈ nodeKinds) (h : arm.2 raw properties = .ok n) : n.Built := by
  simp only [nodeKinds, List.mem_cons, List.not_mem_nil, or_false] at harm
  rcases harm with rfl | rfl | rfl | rfl | rfl | rfl | rfl | rfl | rfl | rfl | rfl | rfl | rfl
  · obtain ⟨w, hw, rfl⟩ := map_eq_ok.1 h
    exact built_parseWord hw
  · obtain ⟨w, hw, rfl⟩ := map_eq_ok.1 h
    exact built_parseIsm hw
  · obtain ⟨w, hw, rfl⟩ := map_eq_ok.1 h
    exact built_parseFil hw
  · obtain ⟨w, hw, rfl⟩ := map_eq_ok.1 h
    exact built_parseHarf hw
  · exact built_parseVerbalSentence hprops h
  · exact built_parseIdafaPhrase h
  · exact built_parseHarfGovernance hprops h
  · exact built_parseConnectedSentence hprops h
  · exact built_parseConditionalExpression hprops h
  · exact built_parseExplanatoryExpression hprops h
  · exact built_parseOperatorApplication hprops h
  · exact built_parseOperatorApplication hprops h
  · exact built_parseClause hprops h

include hprops in
/-- **One node**: whatever its kind, it is built by constructors where its properties' nodes are. -/
theorem built_parseNode (j : Json) : ReturnsBuilt (parseNode j properties) := by
  intro n h
  simp only [parseNode, bind_eq_ok] at h
  obtain ⟨raw, -, kind, -, h⟩ := h
  split at h
  · rename_i harm
    exact built_nodeKinds hprops (List.mem_of_find?_eq_some harm) h
  · cases h

end Nodes

/-- **The JSON parser builds by constructors alone.** -/
theorem parse_built {j : Json} {n : Node} (h : parse j = .ok n) : n.Built :=
  Json.fold_induct (P := ReturnsBuilt) (fun j _ hprops => built_parseNode hprops j) j n h

end JsonParser

/-! ## The surface parser -/

namespace SurfaceParser

theorem built_tryParseVerbal {line : Text} {n : Node} (h : tryParseVerbal line = .ok (some n)) : n.Built := by
  unfold tryParseVerbal at h
  split at h
  · cases h
  simp only [bind_eq_ok, map_eq_ok, Option.some.injEq] at h
  obtain ⟨_, -, verb, hverb, _, -, fail, hfail, maful, hmaful, n', h, rfl⟩ := h
  refine .verbalSentence (Word.built_fil hverb) (Word.built_ism hfail) (fun w hw => ?_) (fun _ ha => by cases ha) h
  split at hmaful
  · simp only [map_eq_ok, bind_eq_ok] at hmaful
    obtain ⟨word, ⟨_, -, hword⟩, rfl⟩ := hmaful
    cases hw
    exact Word.built_ism hword
  · cases hmaful; cases hw

theorem built_tryParseAdjunct {line : Text} {n : Node} (h : tryParseAdjunct line = .ok (some n)) : n.Built := by
  unfold tryParseAdjunct at h
  split at h
  · cases h
  simp only [bind_eq_ok, map_eq_ok, Option.some.injEq] at h
  obtain ⟨_, -, operator, hop, _, -, mudaf, hmudaf, _, -, mudafIlayh, hilayh, n', ⟨idafa, hidafa, h⟩, rfl⟩ := h
  exact .harfGovernance (Word.built_harf hop)
    (.idafaPhrase (Word.built_ism hmudaf) (Word.built_ism hilayh) hidafa) h

theorem built_tryParseConnector {line : Text} {w : Word} (h : tryParseConnector line = .ok (some w)) :
    (Node.word w).Built := by
  unfold tryParseConnector at h
  split at h
  · cases h
  simp only [bind_eq_ok, map_eq_ok, Option.some.injEq] at h
  obtain ⟨_, -, _, -, w', h, rfl⟩ := h
  exact Word.built_harf h

theorem built_parseClauseParts {matchedArabic : Bool} : ∀ (fuel : Nat) (rest : Text) (parts parts' : List Node),
    (∀ p ∈ parts, p.Built) → parseClauseParts matchedArabic fuel rest parts = .ok parts' → ∀ p ∈ parts', p.Built
  | 0, _, _, _, hparts, h => by
    cases h; exact hparts
  | fuel + 1, rest, parts, parts', hparts, h => by
    simp only [parseClauseParts] at h
    split at h
    · cases h; exact hparts
    split at h
    · simp only [bind_eq_ok] at h
      obtain ⟨_, -, h⟩ := h
      cases h
    · simp only [bind_eq_ok] at h
      obtain ⟨_, -, _, -, ism, hism, h⟩ := h
      refine built_parseClauseParts fuel _ _ parts' (fun p hp => ?_) h
      rcases List.mem_append.1 hp with hp | hp
      · exact hparts p hp
      · rw [List.mem_singleton.1 hp]; exact Word.built_ism hism

theorem built_tryParseClause {line : Text} {n : Node} (h : tryParseClause line = .ok (some n)) : n.Built := by
  unfold tryParseClause at h
  split at h
  · cases h
  simp only [bind_eq_ok, map_eq_ok, Option.some.injEq] at h
  obtain ⟨verb, hverb, parts, hparts, n', h, rfl⟩ := h
  refine .clause (built_parseClauseParts _ _ _ parts (fun p hp => ?_) hparts) h
  rw [List.mem_singleton.1 hp]; exact Word.built_fil hverb

/-- The node of a statement. -/
def Statement.node : Statement → Node
  | .verbal n => n
  | .adjunct n => n
  | .connector w => .word w
  | .clause n => n

/-- The attempt that an accepted statement comes from. -/
inductive ParsedBy (line : Text) : Statement → Prop
  | verbal {n : Node} (h : tryParseVerbal line = .ok (some n)) : ParsedBy line (.verbal n)
  | adjunct {n : Node} (h : tryParseAdjunct line = .ok (some n)) : ParsedBy line (.adjunct n)
  | connector {w : Word} (h : tryParseConnector line = .ok (some w)) : ParsedBy line (.connector w)
  | clause {n : Node} (h : tryParseClause line = .ok (some n)) : ParsedBy line (.clause n)

theorem parsedBy_of_parseStatement {line : Text} {st : Statement} (h : parseStatement line = .ok st) :
    ParsedBy line st := by
  simp only [parseStatement, bind_eq_ok] at h
  obtain ⟨verbal, hverbal, h⟩ := h
  cases verbal with
  | some verbal => rw [pure_eq_ok] at h; subst h; exact .verbal hverbal
  | none =>
  simp only [bind_eq_ok] at h
  obtain ⟨adjunct, hadjunct, h⟩ := h
  cases adjunct with
  | some adjunct => rw [pure_eq_ok] at h; subst h; exact .adjunct hadjunct
  | none =>
  simp only [bind_eq_ok] at h
  obtain ⟨connector, hconnector, h⟩ := h
  cases connector with
  | some connector => rw [pure_eq_ok] at h; subst h; exact .connector hconnector
  | none =>
  simp only [bind_eq_ok] at h
  obtain ⟨clause, hclause, h⟩ := h
  cases clause with
  | some clause => rw [pure_eq_ok] at h; subst h; exact .clause hclause
  | none =>
    simp only [throwSurfaceDiagnostic, bind_eq_ok] at h
    obtain ⟨_, -, _, -, h⟩ := h
    cases h

theorem built_parseStatement {line : Text} {st : Statement} (h : parseStatement line = .ok st) : st.node.Built := by
  cases parsedBy_of_parseStatement h with
  | verbal hline => exact built_tryParseVerbal hline
  | adjunct hline => exact built_tryParseAdjunct hline
  | connector hline => exact built_tryParseConnector hline
  | clause hline => exact built_tryParseClause hline

/-- Attaching an adjunct takes a verbal sentence apart and builds it again. -/
theorem built_attachToLast {adjunct : Node} (hadjunct : adjunct.Built) : ∀ (items items' : List Node),
    (∀ i ∈ items, i.Built) → attachToLast adjunct items = .ok items' → ∀ i ∈ items', i.Built := by
  intro items
  induction items with
  | nil => intro _ _ h; cases h
  | cons item items ih =>
    intro items' hitems h
    unfold attachToLast at h
    split at h
    · rename_i heq; cases heq
    · rename_i verb fail maful adjuncts rest heq
      cases heq
      simp only [bind_eq_ok, pure_eq_ok] at h
      obtain ⟨sentence, hsentence, rfl⟩ := h
      intro i hi
      rcases List.mem_cons.1 hi with rfl | hi
      · obtain ⟨hverb, hfail, hmaful, hold⟩ := built_parts (hitems _ List.mem_cons_self)
        refine .verbalSentence hverb hfail hmaful (fun a ha => ?_) hsentence
        rcases List.mem_append.1 ha with ha | ha
        · exact hold a ha
        · rw [List.mem_singleton.1 ha]; exact hadjunct
      · exact hitems i (List.mem_cons_of_mem _ hi)
    · rename_i item' rest hno heq
      cases heq
      obtain ⟨tail, htail, rfl⟩ := map_eq_ok.1 h
      intro i hi
      rcases List.mem_cons.1 hi with rfl | hi
      · exact hitems i List.mem_cons_self
      · exact ih tail (fun x hx => hitems x (List.mem_cons_of_mem _ hx)) htail i hi
where
  built_parts {verb fail : Word} {maful : Option Word} {adjuncts : List Node}
      (h : (Node.verbalSentence verb fail maful adjuncts).Built) :
      (Node.word verb).Built ∧ (Node.word fail).Built ∧ (∀ w ∈ maful, (Node.word w).Built) ∧ ∀ a ∈ adjuncts, a.Built := by
    generalize hn : Node.verbalSentence verb fail maful adjuncts = n at h
    cases h with
    | word h => cases hn
    | verbalSentence hverb hfail hmaful hadjuncts h =>
      obtain ⟨rfl, -⟩ := newVerbalSentence_eq_ok h
      cases hn
      exact ⟨hverb, hfail, hmaful, hadjuncts⟩
    | idafaPhrase _ _ h => rw [(newIdafaPhrase_eq_ok h).1] at hn; cases hn
    | harfGovernance _ _ h => rw [(newHarfGovernance_eq_ok h).1] at hn; cases hn
    | connectedSentence _ _ _ h => rw [(newConnectedSentence_eq_ok h).1] at hn; cases hn
    | operatorApplication _ _ h => rw [(newOperatorApplication_eq_ok h).1] at hn; cases hn
    | clause _ h => rw [(newClause_eq_ok h).1] at hn; cases hn

theorem built_addStatement {items items' : List Node} {st : Statement} (hitems : ∀ i ∈ items, i.Built)
    (hst : st.node.Built) (h : addStatement items st = .ok items') : ∀ i ∈ items', i.Built := by
  have hadd : ∀ n : Node, n.Built → ∀ i ∈ items ++ [n], i.Built := by
    intro n hn i hi
    rcases List.mem_append.1 hi with hi | hi
    · exact hitems i hi
    · rw [List.mem_singleton.1 hi]; exact hn
  cases st with
  | verbal sentence => cases h; exact hadd _ hst
  | connector connector => cases h; exact hadd _ hst
  | clause clause => cases h; exact hadd _ hst
  | adjunct adjunct =>
    obtain ⟨reversed, hrev, rfl⟩ := map_eq_ok.1 h
    intro i hi
    exact built_attachToLast hst items.reverse reversed (fun x hx => hitems x (List.mem_reverse.1 hx)) hrev i
      (List.mem_reverse.1 hi)

theorem built_parseLines : ∀ (lines : List Text) (validated validated' : Bool) (items items' : List Node),
    (∀ i ∈ items, i.Built) → parseLines lines validated items = .ok (validated', items') → ∀ i ∈ items', i.Built
  | [], _, _, _, _, hitems, h => by
    cases h; exact hitems
  | rawLine :: lines, validated, validated', items, items', hitems, h => by
    simp only [parseLines] at h
    split at h
    · exact built_parseLines lines _ _ _ _ hitems h
    split at h
    · simp only [bind_eq_ok] at h
      obtain ⟨_, -, h⟩ := h
      exact built_parseLines lines _ _ _ _ hitems h
    split at h
    · exact built_parseLines lines _ _ _ _ hitems h
    · simp only [bind_eq_ok] at h
      obtain ⟨st, hst, items₁, hadd, h⟩ := h
      exact built_parseLines lines _ _ _ _ (built_addStatement hitems (built_parseStatement hst) hadd) h

theorem built_foldRest {n : Node} : ∀ (items : List Node) (current : Node), current.Built → (∀ i ∈ items, i.Built) →
    foldRest current items = .ok n → n.Built
  | [], _, hcurrent, _, h => by
    cases h; exact hcurrent
  | [item], _, _, _, h => by
    cases item <;> cases h
  | item :: right :: items, current, hcurrent, hitems, h => by
    unfold foldRest at h
    split at h
    · rename_i heq; cases heq
    · rename_i connector right' rest heq
      cases heq
      simp only [isAdgNode, if_true, bind_eq_ok] at h
      obtain ⟨joined, hjoined, h⟩ := h
      have hright : right.Built := hitems right (by simp)
      exact built_foldRest items joined
        (.connectedSentence hcurrent (hitems _ List.mem_cons_self) hright hjoined)
        (fun i hi => hitems i (List.mem_cons_of_mem _ (List.mem_cons_of_mem _ hi))) h
    · cases h

/-- **The surface parser builds by constructors alone.** -/
theorem parseFile_built {lines : List Text} {n : Node} (h : parseFile lines = .ok n) : n.Built := by
  simp only [parseFile, bind_eq_ok] at h
  obtain ⟨⟨validated, items⟩, hlines, h⟩ := h
  have hitems := built_parseLines lines false validated [] items (fun _ hi => by cases hi) hlines
  split at h
  · cases h
  cases items with
  | nil => cases h
  | cons current rest =>
    simp only [foldItems, isAdgNode, if_true] at h
    exact built_foldRest rest current (hitems _ List.mem_cons_self) (fun i hi => hitems i (List.mem_cons_of_mem _ hi)) h

end SurfaceParser

/-- **Native-proof gate**: every node of a tree that either parser accepts satisfies the rule table, at any depth. -/
theorem accepted_verified :
    (∀ j n, JsonParser.parse j = .ok n → ∀ m ∈ n.subnodes, m.Contract) ∧
      ∀ lines n, SurfaceParser.parseFile lines = .ok n → ∀ m ∈ n.subnodes, m.Contract :=
  ⟨fun _ _ h => (JsonParser.parse_built h).verified, fun _ _ h => (SurfaceParser.parseFile_built h).verified⟩

/-- A question about a conditional sentence, its words given as strings and as an object. -/
def questionDocument : Json :=
  .object [("kind".toList, .string "question".toList), ("target".toList, .object [
    ("kind".toList, .string "verbal".toList), ("verb".toList, .string "كتب".toList),
    ("agent".toList, .string "زيد".toList), ("patient".toList, .string "درس".toList),
    ("adjuncts".toList, .array [.object [("kind".toList, .string "governance".toList),
      ("operator".toList, .string "في".toList), ("operand".toList, .object [("kind".toList, .string "ism".toList),
        ("surface".toList, .string "بيت".toList), ("case".toList, .string "jarr".toList)])]])])]

def verbalFile : List Text :=
  ["اتجاهُ النصِّ: RTL".toList, "verbal \"كتب\" fael \"زيد\" raf maful \"درس\" nasb".toList]

theorem accepted_verified_samples :
    (∀ m ∈ (valueOf (JsonParser.parse questionDocument) (by decide)).subnodes, m.Contract) ∧
      ∀ m ∈ (valueOf (SurfaceParser.parseFile verbalFile) (by decide)).subnodes, m.Contract :=
  ⟨accepted_verified.1 questionDocument _ (eq_ok_valueOf _), accepted_verified.2 verbalFile _ (eq_ok_valueOf _)⟩

end Adg
