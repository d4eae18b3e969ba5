import AdgLang.AccountRuns
/-!
# EmailCodes — how often a code is tried and its token used

Of one verification at most one request obtains a token, at most one takes it and at most one spends it, however the
requests are interleaved.  Codes are compared at most `emailMaxAttempts` times in the runs where a failed code is counted
before the next is compared (`codes_bounded`): the comparison and the count are two statements.
-/
namespace Adg
namespace Accounts

open Interleaved (total)

/-! ## What happens to a verification -/

/-- A submitted code is compared with the stored hash: whether the statement succeeds depends on the code. -/
def Command.compares (id : Text) (c : Command) (s : Store) : Nat :=
  match c with
  | .verify id' _ _ now => if id' = id ∧ s.verifications.any (Verification.isCompared id now) = true then 1 else 0
  | _ => 0

/-- A request obtains a token. -/
def Command.obtains (id : Text) (c : Command) (s : Store) : Nat :=
  match c with
  | .verify id' codeHash _ now =>
    if id' = id ∧ s.verifications.any (fun v => v.isCompared id now && decide (v.codeHash = codeHash)) = true then 1 else 0
  | _ => 0

/-- The address of an account is changed by the token. -/
def Store.isChanged (s : Store) (e : VerifiedEmail) (userId : Text) (now : Nat) : Bool :=
  s.users.any (fun u => decide (u.id = userId)) && s.verifications.any (Verification.isVerified e now)

/-- A change of address uses the token. -/
def Command.changes (env : Env) (id : Text) (x : Outside) (c : Command) (s : Store) : Nat :=
  match c with
  | .changeAddress e userId _ _ now =>
    if e.id = id ∧ s.isChanged e userId now = true ∧ (c.commit env x s).isSome = true then 1 else 0
  | _ => 0

/-- A registration begins with the token. -/
def Command.reserves (env : Env) (id : Text) (x : Outside) (c : Command) (s : Store) : Nat :=
  match c with
  | .reserve e _ _ _ _ now =>
    if e.id = id ∧ s.verifications.any (Verification.isVerified e now) = true ∧ (c.commit env x s).isSome = true then 1
    else 0
  | _ => 0

/-- A registration is finished with the token. -/
def Command.finishes (env : Env) (id : Text) (x : Outside) (c : Command) (s : Store) : Nat :=
  match c with
  | .register r => if r.verificationId = id ∧ (c.commit env x s).isSome = true then 1 else 0
  | _ => 0

/-- The token is taken: by a registration that begins, or a change of address. -/
def Command.takesToken (env : Env) (id : Text) (x : Outside) (c : Command) (s : Store) : Nat :=
  c.reserves env id x s + c.changes env id x s

/-- The token is spent: by a registration that is finished, or a change of address. -/
def Command.spendsToken (env : Env) (id : Text) (x : Outside) (c : Command) (s : Store) : Nat :=
  c.finishes env id x s + c.changes env id x s

/-! ## The token -/

/-- The rows with the identifier, which is drawn, all satisfy `p`: so will they for good. -/
def Store.Settled (id : Text) (p : Verification → Prop) (s : Store) : Prop :=
  id ∈ s.drawn ∧ ∀ v ∈ s.verifications, v.id = id → p v

theorem settled_stable {env : Env} {id : Text} {p : Verification → Prop}
    (hp : ∀ c x v v', VerificationStep c x v v' → p v → p v') : (accounts env).Stable (Store.Settled id p) := by
  intro x c s hi _ h
  show Store.Settled id p (c.exec env x s)
  obtain ⟨-, hsame⟩ | ⟨s', -, happly, -, hexec⟩ := c.exec_cases env x s
  · rw [hsame]
    exact h
  · rw [hexec]
    refine ⟨c.drawn_grows happly h.1, fun v' hv' hid => ?_⟩
    obtain ⟨v, hv, hstep⟩ | hnew := c.verifications_cases happly hv'
    · exact hp c x v v' hstep (h.2 v hv (hstep.id.1.symm.trans hid))
    · exact absurd (hid ▸ h.1) hnew.1

theorem verified_settles {c : Command} {x : Outside} {v v' : Verification} (h : VerificationStep c x v v')
    (hv : v.verifiedAt ≠ none) : v'.verifiedAt ≠ none := by
  cases h with
  | verified codeHash tokenHash now hc hcompared => nofun
  | _ => exact hv

theorem reserved_settles {c : Command} {x : Outside} {v v' : Verification} (h : VerificationStep c x v v')
    (hv : v.reservedAt ≠ none) : v'.reservedAt ≠ none := by
  cases h with
  | reserved e userId profile consent challenge now hc hverified => nofun
  | _ => exact hv

/-! ## Updates of the verifications -/

theorem Store.Keys.update {s : Store} (h : s.Keys) {p : Verification → Bool} {f : Verification → Verification}
    (hid : ∀ v, (f v).id = v.id) (hattempts : ∀ v ∈ s.verifications, p v = true → (f v).attempts ≤ 5) :
    ({ s with verifications := Table.update p f s.verifications } : Store).Keys where
  verifications := h.verifications.update hid
  attempts := by
    intro v' hv'
    obtain ⟨v, hv, rfl⟩ := Table.mem_update.1 hv'
    split
    · rename_i hp
      exact hattempts v hv hp
    · exact h.attempts v hv
  challenges := h.challenges
  users := h.users
  addresses := h.addresses
  passkeys := h.passkeys
  sessions := h.sessions
  erasures := h.erasures
  erasureUsers := h.erasureUsers

theorem Command.commit_of_apply {env : Env} {x : Outside} {c : Command} {s s' : Store} (happly : c.apply env x s = some s')
    (hkeys : s'.Keys) : c.commit env x s = some s' ∧ c.exec env x s = s' := by
  have hcommit : c.commit env x s = some s' := Option.filter_eq_some_iff.2 ⟨happly, decide_eq_true hkeys⟩
  exact ⟨hcommit, by rw [exec, hcommit]; rfl⟩

theorem Verification.isCompared_iff {id : Text} {now : Nat} {v : Verification} : v.isCompared id now = true ↔
    v.id = id ∧ v.attempts < emailMaxAttempts ∧ v.verifiedAt = none ∧ v.reservedAt = none ∧ v.consumedAt = none ∧
      now < v.expiresAt := by
  simp only [isCompared, isOpen, Bool.and_eq_true, decide_eq_true_eq, Option.isNone_iff_eq_none,
    and_assoc]

/-- A comparison is committed. -/
theorem exec_verify {env : Env} {x : Outside} {s : Store} (h : s.Sound) (id codeHash tokenHash : Text) (now : Nat) :
    (Command.verify id codeHash tokenHash now).exec env x s = { s with
      verifications := Table.update (fun v => v.isCompared id now && decide (v.codeHash = codeHash))
        (verified tokenHash now) s.verifications } :=
  (Command.commit_of_apply (x := x) (c := .verify id codeHash tokenHash now) rfl
    (h.keys.update (fun _ => rfl) (fun v hv _ => h.keys.attempts v hv))).2

/-- A count is committed. -/
theorem exec_countAttempt {env : Env} {x : Outside} {s : Store} (h : s.Sound) (id : Text) (now : Nat) :
    (Command.countAttempt id now).exec env x s = { s with
      verifications := Table.update (fun v => decide (v.id = id) && v.isOpen) (tried now) s.verifications } := by
  refine (Command.commit_of_apply (x := x) (c := .countAttempt id now) rfl
    (h.keys.update (fun _ => rfl) (fun v _ hp => ?_))).2
  simp only [Verification.isOpen, Bool.and_eq_true, decide_eq_true_eq] at hp
  exact hp.2.1.1.1

/-- The deletion of a challenge is committed. -/
theorem exec_takeChallenge {env : Env} {x : Outside} {s : Store} (h : s.Sound) (id : Text) (kind : ChallengeKind) :
    (Command.takeChallenge id kind).exec env x s = { s with
      challenges := Table.delete (fun c => decide (c.id = id) && decide (c.kind = kind)) s.challenges } :=
  (Command.commit_of_apply (x := x) (c := .takeChallenge id kind) rfl
    { h.keys with challenges := h.keys.challenges.delete }).2

theorem Command.committed_cases {env : Env} {x : Outside} {c : Command} {s : Store}
    (h : (c.commit env x s).isSome = true) : ∃ s', c.apply env x s = some s' ∧ c.exec env x s = s' := by
  obtain ⟨hnone, -⟩ | ⟨s', -, happly, -, hexec⟩ := c.exec_cases env x s
  · rw [hnone] at h
    cases h
  · exact ⟨s', happly, hexec⟩

/-- A change of address deletes the verification whose token it uses. -/
theorem isChanged_deletes {s : Store} (h : s.Sound) {e : VerifiedEmail} {userId : Text} {now : Nat}
    (hchanged : s.isChanged e userId now = true) {profile : Profile} {consent : Consent} :
    ∃ v ∈ s.verifications, v.isVerified e now = true ∧
      ∀ v' ∈ (s.changeAddress e userId profile consent now).verifications, v'.id ≠ e.id := by
  obtain ⟨v, hv, htest⟩ := List.any_eq_true.1 (Bool.and_eq_true_iff.1 hchanged).2
  obtain ⟨hid, -, htoken, -, -, -, hconsumed⟩ := Verification.isVerified_iff.1 htest
  refine ⟨v, hv, htest, fun v' hv' hid' => ?_⟩
  obtain ⟨hmem, hnot⟩ := mem_deleteVerifications.1 hv'
  have hmem : v' ∈ s.verifications := hmem
  obtain rfl := h.keys.verifications.eq_of_key hmem hv (hid'.trans hid.symm)
  rw [hid, htoken, hconsumed] at hnot
  simp at hnot

section Runs

variable {env : Env} {C : AccountsState → Interleaved.Action Outside Request → Prop} {w : AccountsState}
  (hrun : (accountsWorld env).Steps C accountsStart w) (id : Text)
include hrun

/-- **At most one request obtains a token.** -/
theorem obtained_once : total (fun _ c s => c.obtains id s) w.log ≤ 1 := by
  refine (Interleaved.total_le_one (D := accounts env)
    (K := Store.Settled id (fun v => v.verifiedAt ≠ none)) (handle_obeys env) .empty (fun _ c s => ?_)
    (settled_stable (fun _ _ _ _ h => verified_settles h)) (fun x c s hi _ hobtains => ?_) hrun).1
  · cases c with
    | verify id' codeHash tokenHash now => unfold Command.obtains; dsimp only; split <;> omega
    | _ => exact Nat.zero_le 1
  cases c with
  | verify id' codeHash tokenHash now =>
    unfold Command.obtains at hobtains
    dsimp only at hobtains
    split at hobtains
    · rename_i hmatch
      obtain ⟨rfl, hany⟩ := hmatch
      obtain ⟨v, hv, htest⟩ := List.any_eq_true.1 hany
      rw [Bool.and_eq_true] at htest
      obtain ⟨hid, -, hnone, -⟩ := Verification.isCompared_iff.1 htest.1
      refine ⟨fun hclosed => hclosed.2 v hv hid hnone, ?_⟩
      show Store.Settled id' _ ((Command.verify id' codeHash tokenHash now).exec env x s)
      rw [exec_verify hi]
      refine ⟨hid ▸ hi.verifications v hv, fun v' hv' hid' => ?_⟩
      obtain ⟨u, hu, rfl⟩ := Table.mem_update.1 hv'
      have huid : u.id = id' := by
        rw [← hid']
        split <;> rfl
      obtain rfl := hi.keys.verifications.eq_of_key hu hv (huid.trans hid.symm)
      rw [if_pos (by simp [htest.1, htest.2])]
      nofun
    · exact absurd rfl hobtains
  | _ => exact absurd rfl hobtains

/-- **At most one request takes the token.** -/
theorem taken_once : total (fun x c s => c.takesToken env id x s) w.log ≤ 1 := by
  refine (Interleaved.total_le_one (D := accounts env)
    (K := Store.Settled id (fun v => v.reservedAt ≠ none)) (handle_obeys env) .empty (fun x c s => ?_)
    (settled_stable (fun _ _ _ _ h => reserved_settles h)) (fun x c s hi _ htakes => ?_) hrun).1
  · cases c with
    | reserve e userId profile consent challenge now =>
      show (if _ then 1 else 0) + 0 ≤ 1
      split <;> omega
    | changeAddress e userId profile consent now =>
      show 0 + (if _ then 1 else 0) ≤ 1
      split <;> omega
    | _ => exact Nat.zero_le 1
  cases c with
  | reserve e userId profile consent challenge now =>
    have hif : (if e.id = id ∧ s.verifications.any (Verification.isVerified e now) = true ∧
        ((Command.reserve e userId profile consent challenge now).commit env x s).isSome = true then 1 else 0) + 0 ≠ 0 :=
      htakes
    split at hif
    · rename_i hmatch
      obtain ⟨rfl, hany, hcommitted⟩ := hmatch
      obtain ⟨v, hv, htest⟩ := List.any_eq_true.1 hany
      obtain ⟨hid, -, -, -, -, hnone, -⟩ := Verification.isVerified_iff.1 htest
      refine ⟨fun hclosed => hclosed.2 v hv hid hnone, ?_⟩
      show Store.Settled e.id _ ((Command.reserve e userId profile consent challenge now).exec env x s)
      obtain ⟨s', happly, hexec⟩ := Command.committed_cases hcommitted
      rw [hexec]
      refine ⟨Command.drawn_grows happly (hid ▸ hi.verifications v hv), fun v' hv' hid' => ?_⟩
      simp only [Command.apply] at happly
      split at happly
      · cases happly
      · obtain rfl := Option.some.inj happly
        obtain ⟨u, hu, rfl⟩ := Table.mem_update.1 hv'
        have huid : u.id = e.id := by
          rw [← hid']
          split <;> rfl
        obtain rfl := hi.keys.verifications.eq_of_key hu hv (huid.trans hid.symm)
        rw [if_pos htest]
        rintro ⟨⟩
    · exact absurd rfl hif
  | changeAddress e userId profile consent now =>
    have hif : 0 + (if e.id = id ∧ s.isChanged e userId now = true ∧
        ((Command.changeAddress e userId profile consent now).commit env x s).isSome = true then 1 else 0) ≠ 0 := htakes
    split at hif
    · rename_i hmatch
      obtain ⟨rfl, hchanged, hcommitted⟩ := hmatch
      obtain ⟨v, hv, htest, hgone⟩ := isChanged_deletes hi hchanged
      obtain ⟨hid, -, -, -, -, hnone, -⟩ := Verification.isVerified_iff.1 htest
      refine ⟨fun hclosed => hclosed.2 v hv hid hnone, ?_⟩
      show Store.Settled e.id _ ((Command.changeAddress e userId profile consent now).exec env x s)
      obtain ⟨s', happly, hexec⟩ := Command.committed_cases hcommitted
      rw [hexec]
      obtain rfl := Option.some.inj happly
      exact ⟨hid ▸ hi.verifications v hv, fun v' hv' hid' => absurd hid' (hgone v' hv')⟩
    · exact absurd rfl hif
  | _ => exact absurd rfl htakes

/-- A change of address happens once, and leaves nothing of the verification. -/
theorem changed_once : total (fun x c s => c.changes env id x s) w.log ≤ 1 ∧
    (total (fun x c s => c.changes env id x s) w.log ≠ 0 → ∀ r ∈ w.store.reservations, r.verificationId ≠ id) := by
  have h := Interleaved.total_le_one (D := accounts env)
    (f := fun x c s => c.changes env id x s)
    (K := fun s => s.Settled id (fun _ => False) ∧ ∀ r ∈ s.reservations, r.verificationId ≠ id) (handle_obeys env)
    .empty (fun x c s => ?_) ?_ (fun x c s hi _ hchanges => ?_) hrun
  · exact ⟨h.1, fun hne => (h.2 hne).2⟩
  · cases c with
    | changeAddress e userId profile consent now =>
      show (if _ then 1 else 0) ≤ 1
      split <;> omega
    | _ => exact Nat.zero_le 1
  · intro x c s hi hfact hclosed
    have hsettled := settled_stable (fun _ _ _ _ _ h => h) x c s hi hfact hclosed.1
    refine ⟨hsettled, fun r hr => ?_⟩
    have hr : r ∈ (c.exec env x s).reservations := hr
    obtain ⟨-, hsame⟩ | ⟨s', -, happly, -, hexec⟩ := c.exec_cases env x s
    · exact hclosed.2 r (hsame ▸ hr)
    · rw [hexec] at hr
      obtain hold | ⟨e, userId, profile, consent, challenge, now, -, v, hv, -, rfl⟩ := c.new_reservation happly hr
      · exact hclosed.2 r hold
      · exact fun hid => hclosed.1.2 v hv hid
  · cases c with
    | changeAddress e userId profile consent now =>
      have hif : (if e.id = id ∧ s.isChanged e userId now = true ∧
          ((Command.changeAddress e userId profile consent now).commit env x s).isSome = true then 1 else 0) ≠ 0 := hchanges
      split at hif
      · rename_i hmatch
        obtain ⟨rfl, hchanged, hcommitted⟩ := hmatch
        obtain ⟨v, hv, htest, hgone⟩ := isChanged_deletes hi hchanged
        obtain ⟨hid, -, -, -, -, hnone, -⟩ := Verification.isVerified_iff.1 htest
        refine ⟨fun hclosed => hclosed.1.2 v hv hid, ?_⟩
        show Store.Settled e.id _ ((Command.changeAddress e userId profile consent now).exec env x s) ∧
          ∀ r ∈ ((Command.changeAddress e userId profile consent now).exec env x s).reservations, _
        obtain ⟨s', happly, hexec⟩ := Command.committed_cases hcommitted
        rw [hexec]
        obtain rfl := Option.some.inj happly
        exact ⟨⟨hid ▸ hi.verifications v hv, fun v' hv' hid' => hgone v' hv' hid'⟩,
          fun r hr => hid ▸ hi.free v hv hnone r hr⟩
      · exact absurd rfl hif
    | _ => exact absurd rfl hchanges

/-- **A registration challenge leads to at most one commit.** -/
theorem registered_once (challengeId : Text) : total (fun x c s => c.registers env challengeId x s) w.log ≤ 1 := by
  have hspent := Interleaved.spent_le_earned (D := accounts env)
    (fun r => handle_affords challengeId r) hrun
  refine Nat.le_trans hspent (Interleaved.total_le_one (D := accounts env)
    (K := fun s => challengeId ∈ s.drawn ∧ ∀ k ∈ s.challenges, k.id ≠ challengeId) (handle_obeys env) .empty
    (fun x c s => ?_) (fun x c s hi _ hclosed => ?_) (fun x c s hi _ htakes => ?_) hrun).1
  · cases c with
    | takeChallenge id kind =>
      show (if _ then 1 else 0) ≤ 1
      split <;> omega
    | _ => exact Nat.zero_le 1
  · show challengeId ∈ (c.exec env x s).drawn ∧ ∀ k ∈ (c.exec env x s).challenges, k.id ≠ challengeId
    obtain ⟨-, hsame⟩ | ⟨s', -, happly, -, hexec⟩ := c.exec_cases env x s
    · rw [hsame]
      exact hclosed
    · rw [hexec]
      refine ⟨c.drawn_grows happly hclosed.1, fun k' hk' => ?_⟩
      obtain ⟨k, hk, hid⟩ | ⟨hnew, -⟩ := c.challenges_cases happly hk'
      · exact hid ▸ hclosed.2 k hk
      · exact fun hid => hnew (hid ▸ hclosed.1)
  · cases c with
    | takeChallenge id kind =>
      have hif : (if id = challengeId ∧ s.challenges.any (isChallenge id kind) = true then 1 else 0) ≠ 0 := htakes
      split at hif
      · rename_i hmatch
        obtain ⟨rfl, hany⟩ := hmatch
        obtain ⟨k, hk, htest⟩ := List.any_eq_true.1 hany
        have hid : k.id = id := by
          simp only [isChallenge, Bool.and_eq_true, decide_eq_true_eq] at htest
          exact htest.1
        refine ⟨fun hclosed => hclosed.2 k hk hid, ?_⟩
        show id ∈ ((Command.takeChallenge id kind).exec env x s).drawn ∧
          ∀ k' ∈ ((Command.takeChallenge id kind).exec env x s).challenges, k'.id ≠ id
        rw [exec_takeChallenge hi]
        refine ⟨hid ▸ hi.challenges k hk, fun k' hk' hid' => ?_⟩
        obtain ⟨hmem, hnot⟩ := Table.mem_delete.1 hk'
        obtain rfl := hi.keys.challenges.eq_of_key hmem hk (hid'.trans hid.symm)
        exact absurd htest (by rw [show isChallenge id kind k' = false from hnot]; exact Bool.false_ne_true)
      · exact absurd rfl hif
    | _ => exact absurd rfl htakes

/-- **At most one request spends the token.** -/
theorem spent_once : total (fun x c s => c.spendsToken env id x s) w.log ≤ 1 := by
  obtain ⟨hsound, hlog⟩ := accounts_sound hrun
  have hsplit : total (fun x c s => c.spendsToken env id x s) w.log =
      total (fun x c s => c.finishes env id x s) w.log + total (fun x c s => c.changes env id x s) w.log :=
    Interleaved.total_add _ _ w.log
  obtain ⟨hchanged, hgone⟩ := changed_once hrun id
  -- a registration that is finished under the verification was reserved for it
  have hfact : ∀ e ∈ w.log, e.command.finishes env id e.input e.before ≠ 0 →
      ∃ r, e.command = .register r ∧ r.verificationId = id ∧
        ⟨id, r.challengeId, r.verifiedEmailHash⟩ ∈ w.store.reservations := by
    intro e he hfinishes
    obtain ⟨-, hfact, hgrows⟩ := hlog e he
    cases hc : e.command with
    | register r =>
      rw [hc] at hfinishes hfact
      have hif : (if r.verificationId = id ∧ ((Command.register r).commit env e.input e.before).isSome = true then 1 else 0) ≠ 0 :=
        hfinishes
      split at hif
      · rename_i hmatch
        exact ⟨r, rfl, hmatch.1, hmatch.1 ▸ hgrows hfact⟩
      · exact absurd rfl hif
    | _ =>
      rw [hc] at hfinishes
      exact absurd rfl hfinishes
  by_cases hnone : total (fun x c s => c.finishes env id x s) w.log = 0
  · omega
  obtain ⟨e, he, hfinishes⟩ := Interleaved.exists_of_total hnone
  obtain ⟨r, -, -, hreserved⟩ := hfact e he hfinishes
  have hunchanged : total (fun x c s => c.changes env id x s) w.log = 0 := by
    by_contra hne
    exact hgone hne _ hreserved rfl
  have hmono : total (fun x c s => c.finishes env id x s) w.log ≤
      total (fun x c s => c.registers env r.challengeId x s) w.log := by
    refine Interleaved.total_mono (fun d hd => ?_)
    by_cases hd' : d.command.finishes env id d.input d.before = 0
    · rw [hd']
      exact Nat.zero_le _
    · obtain ⟨q, hq, hid, hqreserved⟩ := hfact d hd hd'
      have hsame := hsound.once.eq_of_key hqreserved hreserved rfl
      have hchallenge : q.challengeId = r.challengeId := congrArg Reservation.challengeId hsame
      rw [hq]
      unfold Command.finishes Command.registers
      dsimp only
      rw [hid, hchallenge]
      simp only [true_and]
      exact Nat.le_refl _
  have honce := registered_once hrun r.challengeId
  omega

end Runs

/-! ## The codes -/

/-- How many requests have yet to count a code that failed. -/
def awaiting (w : AccountsState) (id : Text) : Nat := w.programs.countP (fun p => isCounting id p.2.pending)

/-- The codes compared under a verification. -/
def compared (w : AccountsState) (id : Text) : Nat := total (fun _ c s => c.compares id s) w.log

/-- Under the verification that the command compares a code of, no failed code has yet to be counted. -/
def ComparesFreely (w : AccountsState) : Command → Prop
  | .verify id _ _ _ => awaiting w id = 0
  | _ => True

def Command.counts : Command → Bool
  | .countAttempt _ _ => true
  | _ => false

/-- No code is compared while a code that failed under the verification has yet to be counted, and no request is stopped
before it has counted. -/
def CountedFirst (w : AccountsState) : Interleaved.Action Outside Request → Prop
  | .advance i _ => ∀ p ∈ w.programs[i]?, ∀ c ∈ p.2.pending, ComparesFreely w c
  | .stop i => ∀ p ∈ w.programs[i]?, ∀ c ∈ p.2.pending, c.counts = false
  | .start _ => True

instance (w : AccountsState) (a : Interleaved.Action Outside Request) : Decidable (CountedFirst w a) :=
  have : DecidablePred (ComparesFreely w) := fun c => by
    unfold ComparesFreely
    split <;> infer_instance
  match a with
  | .advance i _ => inferInstanceAs (Decidable (∀ p ∈ w.programs[i]?, ∀ c ∈ p.2.pending, ComparesFreely w c))
  | .stop i => inferInstanceAs (Decidable (∀ p ∈ w.programs[i]?, ∀ c ∈ p.2.pending, c.counts = false))
  | .start _ => isTrue trivial

/-- While a code may be tried, the comparisons are counted or about to be. -/
structure Counted (w : AccountsState) (id : Text) : Prop where
  bounded : compared w id ≤ emailMaxAttempts
  counted : ∀ v ∈ w.store.verifications, v.id = id → v.isOpen = true → compared w id ≤ v.attempts + awaiting w id
  drawn : id ∉ w.store.drawn → compared w id = 0

section Counting

variable {env : Env} {w w' : AccountsState} {id : Text} {i : Nat} {p p' : Request × Call Unit}

/-- What one program turns to changes the requests that have yet to count. -/
theorem awaiting_set (id : Text) (hp : w.programs[i]? = some p) (hprograms : w'.programs = w.programs.set i p') :
    awaiting w' id + (if isCounting id p.2.pending = true then 1 else 0) =
      awaiting w id + (if isCounting id p'.2.pending = true then 1 else 0) := by
  obtain ⟨hi, hget⟩ := List.getElem?_eq_some_iff.1 hp
  unfold awaiting
  rw [hprograms, List.countP_set hi, hget]
  by_cases hcounting : isCounting id p.2.pending = true
  · have hpos : 0 < w.programs.countP (fun p => isCounting id p.2.pending) :=
      List.countP_pos_iff.2 ⟨p, List.mem_of_getElem? hp, hcounting⟩
    rw [if_pos hcounting]
    omega
  · rw [if_neg hcounting]
    omega

/-- A program that does not count leaves those that do. -/
theorem awaiting_le (hp : w.programs[i]? = some p) (hprograms : w'.programs = w.programs.set i p')
    (hnot : isCounting id p.2.pending = false) : awaiting w id ≤ awaiting w' id := by
  have h := awaiting_set id hp hprograms
  rw [hnot, if_neg (by nofun)] at h
  omega

/-- A command that neither compares nor counts under the verification opens no row that was not open. -/
theorem open_before {c : Command} {x : Outside} {s s' : Store} (happly : c.apply env x s = some s')
    (hverify : ∀ codeHash tokenHash now, c ≠ .verify id codeHash tokenHash now)
    (hcount : ∀ now, c ≠ .countAttempt id now) {v' : Verification} (hv' : v' ∈ s'.verifications) (hid : v'.id = id)
    (hopen : v'.isOpen = true) : v' ∈ s.verifications ∨ id ∉ s.drawn := by
  obtain ⟨v, hv, hstep⟩ | hnew := c.verifications_cases happly hv'
  · obtain rfl := hstep.id.1.symm.trans hid
    cases hstep with
    | same => exact .inl hv
    | consumed now => simp [Verification.isOpen, consume] at hopen
    | verified codeHash tokenHash now hc hcompared => exact absurd hc (hverify codeHash tokenHash now)
    | tried now hc hopen => exact absurd hc (hcount now)
    | reserved e userId profile consent challenge now hc hverified => simp [Verification.isOpen, reserved] at hopen
  · exact .inr (hid ▸ hnew.1)

/-- Where nothing is compared and nothing counted under the verification, the count stays. -/
theorem Counted.keep (h : Counted w id) (hcompared : compared w' id = compared w id)
    (hawaiting : awaiting w id ≤ awaiting w' id) (hdrawn : w.store.drawn ⊆ w'.store.drawn)
    (hopen : ∀ v' ∈ w'.store.verifications, v'.id = id → v'.isOpen = true →
      v' ∈ w.store.verifications ∨ id ∉ w.store.drawn) : Counted w' id where
  bounded := hcompared ▸ h.bounded
  counted := by
    intro v' hv' hid hv'open
    rw [hcompared]
    obtain hold | hnew := hopen v' hv' hid hv'open
    · exact Nat.le_trans (h.counted v' hold hid hv'open) (Nat.add_le_add_left hawaiting _)
    · rw [h.drawn hnew]
      exact Nat.zero_le _
  drawn := fun hnot => hcompared ▸ h.drawn (fun hmem => hnot (hdrawn hmem))

/-- A comparison under the verification. -/
theorem Counted.verify (hs : w.store.Sound) (h : Counted w id) (hzero : awaiting w id = 0) {x : Outside}
    {codeHash tokenHash : Text} {now : Nat}
    (hstore : w'.store = (Command.verify id codeHash tokenHash now).exec env x w.store)
    (hlog : compared w' id = compared w id + (Command.verify id codeHash tokenHash now).compares id w.store)
    (hnext : w.store.verifications.any (fun v => v.isCompared id now && decide (v.codeHash = codeHash)) = false →
      awaiting w' id ≠ 0) : Counted w' id := by
  rw [exec_verify hs] at hstore
  by_cases hany : w.store.verifications.any (Verification.isCompared id now) = true
  · obtain ⟨v, hv, htest⟩ := List.any_eq_true.1 hany
    obtain ⟨hid, hattempts, hverified, hreserved, hconsumed, -⟩ := Verification.isCompared_iff.1 htest
    have hopen : v.isOpen = true := by simp [Verification.isOpen, hattempts, hverified, hreserved, hconsumed]
    have hbefore := h.counted v hv hid hopen
    have hlog : compared w' id = compared w id + 1 := by
      rw [hlog]
      simp [Command.compares, hany]
    refine ⟨by omega, fun v' hv' hid' hopen' => ?_, fun hnot => ?_⟩
    · rw [hstore] at hv'
      obtain ⟨u, hu, rfl⟩ := Table.mem_update.1 hv'
      have huid : u.id = id := by
        rw [← hid']
        split <;> rfl
      obtain rfl := hs.keys.verifications.eq_of_key hu hv (huid.trans hid.symm)
      split at hopen'
      · simp [Verification.isOpen, verified] at hopen'
      · rename_i hmiss
        have hfailed : w.store.verifications.any (fun v => v.isCompared id now && decide (v.codeHash = codeHash)) =
            false := by
          rw [List.any_eq_false]
          intro v₂ hv₂ hmatch
          have hid₂ : v₂.id = id := (Verification.isCompared_iff.1 (Bool.and_eq_true_iff.1 hmatch).1).1
          obtain rfl := hs.keys.verifications.eq_of_key hv₂ hv (hid₂.trans hid.symm)
          exact hmiss hmatch
        have hone := hnext hfailed
        rw [if_neg hmiss]
        omega
    · refine absurd ?_ hnot
      rw [hstore]
      exact hid ▸ hs.verifications v hv
  · have hnone : ∀ v ∈ w.store.verifications, v.isCompared id now = false := fun v hv => by
      rw [Bool.not_eq_true] at hany
      simpa using List.any_eq_false.1 hany v hv
    have hsame : w'.store = w.store := by
      rw [hstore, Table.update_eq_self (fun v hv => by rw [hnone v hv]; rfl)]
    refine h.keep ?_ (by omega) (by rw [hsame]; exact List.Subset.refl _) (fun v' hv' _ _ => .inl (hsame ▸ hv'))
    rw [hlog]
    simp [Command.compares, hany]

/-- A count under the verification. -/
theorem Counted.count (hs : w.store.Sound) (h : Counted w id) {x : Outside} {now : Nat}
    (hstore : w'.store = (Command.countAttempt id now).exec env x w.store) (hlog : compared w' id = compared w id)
    (hawaiting : awaiting w id ≤ awaiting w' id + 1) : Counted w' id := by
  rw [exec_countAttempt hs] at hstore
  refine ⟨hlog ▸ h.bounded, fun v' hv' hid' hopen' => ?_, fun hnot => ?_⟩
  · rw [hstore] at hv'
    obtain ⟨u, hu, rfl⟩ := Table.mem_update.1 hv'
    have huid : u.id = id := by
      rw [← hid']
      split <;> rfl
    by_cases hopen : u.isOpen = true
    · have hbefore := h.counted u hu huid hopen
      rw [if_pos (by simp [huid, hopen])]
      show compared w' id ≤ u.attempts + 1 + awaiting w' id
      omega
    · rw [if_neg (by simp [hopen])] at hopen'
      exact absurd hopen' hopen
  · rw [hstore] at hnot
    exact hlog ▸ h.drawn hnot

theorem isCounting_iff {c : Option Command} : isCounting id c = true ↔ ∃ now, c = some (.countAttempt id now) := by
  constructor
  · intro h
    unfold isCounting at h
    split at h
    · rename_i id' now
      exact ⟨now, by rw [of_decide_eq_true h]⟩
    · cases h
  · rintro ⟨now, rfl⟩
    exact decide_eq_true rfl

/-- **Every step keeps the count**, where a failed code is counted first. -/
theorem Counted.step {a : Interleaved.Action Outside Request} (hs : w.store.Sound)
    (halways : ∀ p ∈ w.programs, p.2.Always CountsNext) (hc : CountedFirst w a)
    (ht : Interleaved.Turns (accounts env) (handle env) w w' a) (h : Counted w id) : Counted w' id := by
  cases ht with
  | started request hprograms hstore hlog =>
    refine h.keep (by rw [compared, hlog, ← compared]) ?_ (by rw [hstore]; exact List.Subset.refl _)
      (fun v' hv' _ _ => .inl (hstore ▸ hv'))
    unfold awaiting
    rw [hprograms, List.countP_append]
    exact Nat.le_add_right _ _
  | stopped i p hp hprograms hstore hlog =>
    refine h.keep (by rw [compared, hlog, ← compared]) (awaiting_le hp hprograms ?_)
      (by rw [hstore]; exact List.Subset.refl _) (fun v' hv' _ _ => .inl (hstore ▸ hv'))
    rw [← Bool.not_eq_true, isCounting_iff]
    rintro ⟨now, hnow⟩
    have hnot : (Command.countAttempt id now).counts = false := hc p hp _ hnow
    cases hnot
  | advanced i x request c next hp hprograms hstore hlog =>
    have hcompared : compared w' id = compared w id + Program.worth (fun _ c s => c.compares id s) c x w.store := by
      rw [compared, hlog, Interleaved.total_run]
      rfl
    have hset := awaiting_set id hp hprograms
    cases c with
    | none =>
      have hstore : w'.store = w.store := hstore
      exact h.keep hcompared (awaiting_le hp hprograms rfl) (by rw [hstore]; exact List.Subset.refl _)
        (fun v' hv' _ _ => .inl (hstore ▸ hv'))
    | some c =>
      have hstore : w'.store = c.exec env x w.store := hstore
      by_cases hverify : ∃ codeHash tokenHash now, c = .verify id codeHash tokenHash now
      · obtain ⟨codeHash, tokenHash, now, rfl⟩ := hverify
        have hzero : awaiting w id = 0 := hc _ hp _ rfl
        refine h.verify hs hzero hstore hcompared (fun hfailed => ?_)
        have hcounts := (halways _ (List.mem_of_getElem? hp) x w.store).1 _ rfl hfailed
        rw [if_pos hcounts] at hset
        have hnot : isCounting id (some (Command.verify id codeHash tokenHash now)) = false := rfl
        rw [show (Program.access (some (Command.verify id codeHash tokenHash now)) next).pending =
          some (Command.verify id codeHash tokenHash now) from rfl, hnot, if_neg (by nofun)] at hset
        omega
      by_cases hcount : ∃ now, c = .countAttempt id now
      · obtain ⟨now, rfl⟩ := hcount
        refine h.count hs hstore hcompared ?_
        split at hset <;> omega
      have hnot : isCounting id (Program.access (some c) next).pending = false := by
        rw [← Bool.not_eq_true, isCounting_iff]
        rintro ⟨now, hnow⟩
        exact hcount ⟨now, Option.some.inj hnow⟩
      have hnone : c.compares id w.store = 0 := by
        cases c with
        | verify id' codeHash tokenHash now =>
          have hne : id' ≠ id := fun heq => hverify ⟨codeHash, tokenHash, now, by rw [heq]⟩
          simp [Command.compares, hne]
        | _ => rfl
      refine h.keep (hcompared.trans (by show compared w id + c.compares id w.store = _; rw [hnone, Nat.add_zero]))
        (awaiting_le hp hprograms hnot) ?_ ?_
      · rw [hstore]
        obtain ⟨-, hsame⟩ | ⟨s', -, happly, -, hexec⟩ := c.exec_cases env x w.store
        · rw [hsame]
          exact List.Subset.refl _
        · rw [hexec]
          exact c.drawn_grows happly
      · intro v' hv' hid hopen
        rw [hstore] at hv'
        obtain ⟨-, hsame⟩ | ⟨s', -, happly, -, hexec⟩ := c.exec_cases env x w.store
        · rw [hsame] at hv'
          exact .inl hv'
        · rw [hexec] at hv'
          exact open_before happly (fun codeHash tokenHash now hc => hverify ⟨codeHash, tokenHash, now, hc⟩)
            (fun now hc => hcount ⟨now, hc⟩) hv' hid hopen

end Counting

/-- **Codes are compared at most `emailMaxAttempts` times where a failed code is counted first**; and in every run at most
one request obtains a token, at most one takes it and at most one spends it. -/
theorem codes_bounded {env : Env} {w : AccountsState} (id : Text) :
    ((accountsWorld env).Steps CountedFirst accountsStart w → compared w id ≤ emailMaxAttempts) ∧
      ((accountsWorld env).Reaches accountsStart w → total (fun _ c s => c.obtains id s) w.log ≤ 1 ∧
        total (fun x c s => c.takesToken env id x s) w.log ≤ 1 ∧
          total (fun x c s => c.spendsToken env id x s) w.log ≤ 1) := by
  refine ⟨fun hrun => ?_, fun hrun => ⟨obtained_once hrun id, taken_once hrun id, spent_once hrun id⟩⟩
  have h : (w.store.Sound ∧ (accounts env).Kept w) ∧ (∀ p ∈ w.programs, p.2.Always CountsNext) ∧ Counted w id := by
    refine hrun.invariant (I := fun w => (w.store.Sound ∧ (accounts env).Kept w) ∧
      (∀ p ∈ w.programs, p.2.Always CountsNext) ∧ Counted w id) ⟨⟨.empty, .empty, fun _ hp => absurd hp List.not_mem_nil⟩,
        fun _ hp => absurd hp List.not_mem_nil, ⟨Nat.zero_le _, fun _ hv => absurd hv List.not_mem_nil, fun _ => rfl⟩⟩
      (fun w a w' h hc hs => ?_)
    have ht := Interleaved.turns_of_step hs
    have hkept := (h.1.2.step (handle_obeys env) hs).1
    exact ⟨⟨hkept.1, hkept⟩, ht.always (T := fun _ => CountsNext) (handle_counts env) h.2.1,
      h.2.2.step h.1.1 h.2.1 hc ht⟩
  exact h.2.2.bounded

/-- The identifier that the verification draws in the schedules below. -/
def sampleVerification : Text := Portal.sampleUuidText 4

def wrongCode : Text := "000000".toList

def sendsCode : List Part := [.request (.sendCode (.ok "mail".toList) []), .go 0 7 sampleCode]

/-- A code fails, the next is right, and a registration is finished with the token. -/
def registersOnce : List Part := sendsCode ++
  [.request (.verifyCode sampleVerification wrongCode), .go 1 5 sampleToken,
    .request (.verifyCode sampleVerification sampleCode), .go 2 4 sampleToken,
    .request (.beginRegistration (sampleBody "mail")), .go 3 7 "challenge".toList,
    .request (.finishRegistration (Portal.sampleUuidText 22) (some (fun _ => some ⟨"key".toList, [], 0⟩))),
    .go 4 7 "session".toList]

theorem codes_bounded_once : ∃ w, (accountsWorld sampleEnv).Steps CountedFirst accountsStart w ∧
    compared w sampleVerification = 2 ∧ total (fun x c s => c.spendsToken sampleEnv sampleVerification x s) w.log = 1 ∧
      compared w sampleVerification ≤ emailMaxAttempts := by
  obtain ⟨w, hrun, hp⟩ := run_play sampleEnv CountedFirst registersOnce
    (p := fun w => decide (compared w sampleVerification = 2 ∧
      total (fun x c s => c.spendsToken sampleEnv sampleVerification x s) w.log = 1)) (by decide +kernel) (by decide +kernel)
  have hp := of_decide_eq_true hp
  exact ⟨w, hrun, hp.1, hp.2, (codes_bounded sampleVerification).1 hrun⟩

/-- Six requests find that no code was tried yet, and each compares one before any of them counts. -/
def guessesSix : List Part := sendsCode ++ List.replicate 6 (.request (.verifyCode sampleVerification wrongCode)) ++
  (List.range 6).map (fun i => .go (i + 1) 3 sampleToken) ++ (List.range 6).map (fun i => .go (i + 1) 1 sampleToken)

theorem codes_unbounded : ¬ ∀ (env : Env) (w : AccountsState), (accountsWorld env).Reaches accountsStart w → ∀ id,
    compared w id ≤ emailMaxAttempts ∧ total (fun _ c s => c.obtains id s) w.log ≤ 1 ∧
      total (fun x c s => c.spendsToken env id x s) w.log ≤ 1 := by
  intro h
  obtain ⟨w, hrun, hp⟩ := run_play sampleEnv (fun _ _ => True) guessesSix
    (p := fun w => decide (compared w sampleVerification = 6)) (Machine.runMeets_true _ _) (by decide +kernel)
  have hbounded := (h sampleEnv w hrun sampleVerification).1
  rw [of_decide_eq_true hp] at hbounded
  exact absurd hbounded (by decide)

end Accounts
end Adg
