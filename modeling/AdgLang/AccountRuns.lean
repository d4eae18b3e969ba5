import AdgLang.AccountFacts
import AdgLang.PortalRuns
/-!
# AccountRuns — the world of the accounts

Any number of requests about accounts against one database, from an empty one on (`accountsWorld`).  All but two kinds of
requests run commands that may be run anywhere (`Ordinary`); a request that verifies a code counts a code that failed
before it does anything else (`verify_counts`), and a request that registers commits once for each challenge that it took
(`handle_affords`).
-/
namespace Adg
namespace Accounts

open Portal (isUuid Uuid oldest)
open Program (Only Obeys Affords Always)

/-! ## What the requests run -/

/-- Neither compares a code nor commits a registration. -/
def Command.IsOrdinary : Command → Prop
  | .verify _ _ _ _ => False
  | .register _ => False
  | _ => True

abbrev Ordinary {α : Type} (p : Call α) : Prop := p.Only Command.IsOrdinary

theorem run_ordinary (env : Env) {c : Command} (hc : c.IsOrdinary) : Ordinary (run env c) :=
  .bind (.perform hc) (fun _ => .throwIf)

theorem requiredId_ordinary (value : Text) (label : String) : Ordinary (requiredId value label) :=
  .bind .throwIf (fun _ => trivial)

theorem ofExcept_ordinary {α : Type} (r : Except AccountError α) : Ordinary (ofExcept r) := by
  cases r <;> trivial

theorem filled_ordinary {α : Type} (o : Option α) : Ordinary (filled o) := by
  cases o <;> trivial

theorem verifyRegistrationCredential_ordinary (response : Response) (challenge : Challenge) :
    Ordinary (verifyRegistrationCredential response challenge) := by
  unfold verifyRegistrationCredential
  split <;> trivial

theorem requireSession_ordinary (env : Env) (token : Option Text) : Ordinary (requireSession env token) := by
  unfold requireSession
  split
  · trivial
  · refine .bind .read (fun row => .bind .input (fun x => ?_))
    cases row with
    | none => trivial
    | some account =>
      show Ordinary (if account.expiresAt ≤ x.now then _ else _)
      split
      · exact .bind (run_ordinary env trivial) (fun _ => trivial)
      · trivial

theorem takeChallenge_ordinary (id : Text) (kind : ChallengeKind) : Ordinary (takeChallenge id kind) := by
  refine .bind .read (fun row => ?_)
  cases row with
  | none => trivial
  | some row => exact .bind (.perform trivial) (fun _ => .bind .throwIf (fun _ => .bind .input (fun _ =>
      .bind .throwIf (fun _ => trivial))))

theorem requireVerifiedEmail_ordinary (env : Env) (email : Text) (token : Option Text) :
    Ordinary (requireVerifiedEmail env email token) := by
  cases token with
  | none => trivial
  | some token =>
    refine .bind .throwIf (fun _ => .bind .throwIf (fun _ => .bind .input (fun _ => .bind .read (fun row => ?_))))
    cases row <;> trivial

theorem sendEmailVerificationCode_ordinary (env : Env) (email : Except AccountError Text) (requester : Text) :
    Ordinary (sendEmailVerificationCode env email requester) := by
  refine .bind (ofExcept_ordinary _) (fun _ => .bind .throwIf (fun _ => .bind .input (fun _ =>
    .bind (run_ordinary env trivial) (fun _ => .bind .read (fun _ => .bind .throwIf (fun _ => .bind .throwIf (fun _ =>
      .bind .input (fun _ => .bind (.perform trivial) (fun report => ?_)))))))))
  cases report with
  | none => trivial
  | some report =>
    refine .bind .throwIf (fun _ => .bind .input (fun mail => ?_))
    show Ordinary (if mail.mailFails = true then _ else _)
    split
    · exact .bind (run_ordinary env trivial) (fun _ => trivial)
    · exact run_ordinary env trivial

theorem beginRegistration_ordinary (env : Env) (body : AccountBody) : Ordinary (beginRegistration env body) := by
  refine .bind (ofExcept_ordinary _) (fun _ => .bind (ofExcept_ordinary _) (fun _ =>
    .bind (requireVerifiedEmail_ordinary _ _ _) (fun _ => .bind .read (fun _ => .bind .input (fun _ => .bind .input (fun _ =>
      .bind (run_ordinary env trivial) (fun _ => .bind (.perform trivial) (fun report => ?_))))))))
  cases report with
  | none => trivial
  | some report =>
    show Ordinary (if report.2 ≠ 1 then _ else _)
    split
    · exact .bind (run_ordinary env trivial) (fun _ => trivial)
    · trivial

theorem finishAdditionalPasskeyRegistration_ordinary (env : Env) (token : Option Text) (challengeId : Text)
    (response : Option Response) : Ordinary (finishAdditionalPasskeyRegistration env token challengeId response) := by
  refine .bind (requireSession_ordinary _ _) (fun _ => .bind (requiredId_ordinary _ _) (fun _ => ?_))
  cases response with
  | none => trivial
  | some response =>
    exact .bind (takeChallenge_ordinary _ _) (fun _ => .bind .throwIf (fun _ =>
      .bind (verifyRegistrationCredential_ordinary _ _) (fun _ => .bind (.perform trivial) (fun _ => .throwIf))))

theorem finishAuthentication_ordinary (env : Env) (challengeId : Text) (response : Option SignInResponse) :
    Ordinary (finishAuthentication env challengeId response) := by
  refine .bind (requiredId_ordinary _ _) (fun _ => ?_)
  cases response with
  | none => trivial
  | some response =>
    refine .bind .read (fun passkey => ?_)
    cases passkey with
    | none => trivial
    | some passkey =>
      refine .bind (takeChallenge_ordinary _ _) (fun challenge => .bind .throwIf (fun _ => ?_))
      split
      · trivial
      · exact .bind .input (fun _ => run_ordinary env trivial)

theorem updateAccountPreferences_ordinary (env : Env) (token : Option Text) (body : AccountBody) :
    Ordinary (updateAccountPreferences env token body) := by
  refine .bind (requireSession_ordinary _ _) (fun account => .bind .throwIf (fun _ => .bind (ofExcept_ordinary _)
    (fun profile => .bind (ofExcept_ordinary _) (fun _ => .bind .input (fun _ => ?_)))))
  show Ordinary (if (account.verifiedEmailHash.isNone ||
    decide (account.profile.map Profile.email ≠ some profile.email)) = true then _ else _)
  split
  · refine .bind (requireVerifiedEmail_ordinary _ _ _) (fun _ => .bind (.perform trivial) (fun changes => ?_))
    cases changes with
    | none => trivial
    | some changes => exact .throwIf
  · exact run_ordinary env trivial

theorem requestIdentityErasure_ordinary (env : Env) (token : Option Text) (confirm : Bool) :
    Ordinary (requestIdentityErasure env token confirm) := by
  refine .bind (requireSession_ordinary _ _) (fun _ => .bind .throwIf (fun _ => .bind .read (fun existing => ?_)))
  cases existing with
  | true => trivial
  | false => exact .bind .input (fun _ => run_ordinary env trivial)

theorem eraseIdentity_ordinary (env : Env) (now : Nat) (request : Erasure) : Ordinary (eraseIdentity env now request) := by
  refine .bind .input (fun tasks => ?_)
  show Ordinary (if 0 < tasks.activeCount ∨ now < tasks.latestUpdate + env.retentionMs then _ else _)
  split
  · exact run_ordinary env trivial
  · refine .bind .input (fun blobs => ?_)
    show Ordinary (if blobs.blobsRemain = true then _ else _)
    split
    · trivial
    · refine .bind .read (fun user => ?_)
      cases user <;> exact run_ordinary env trivial

theorem logout_ordinary (env : Env) (token : Option Text) : Ordinary (logout env token) := by
  unfold logout
  split
  · trivial
  · exact run_ordinary env trivial

/-- **Only two kinds of requests run other commands.** -/
theorem handle_ordinary (env : Env) {r : Request} (hverify : ∀ verificationId code, r ≠ .verifyCode verificationId code)
    (hregister : ∀ challengeId response, r ≠ .finishRegistration challengeId response) : Ordinary (handle env r) := by
  cases r with
  | verifyCode verificationId code => exact absurd rfl (hverify verificationId code)
  | finishRegistration challengeId response => exact absurd rfl (hregister challengeId response)
  | sendCode email requester => exact sendEmailVerificationCode_ordinary _ _ _
  | beginRegistration body => exact beginRegistration_ordinary _ _
  | beginAdditionalPasskey token =>
    exact .bind (requireSession_ordinary _ _) (fun _ => .bind .input (fun _ => .bind (run_ordinary env trivial)
      (fun _ => run_ordinary env trivial)))
  | finishAdditionalPasskey token challengeId response => exact finishAdditionalPasskeyRegistration_ordinary _ _ _ _
  | beginAuthentication =>
    exact .bind .input (fun _ => .bind (run_ordinary env trivial) (fun _ => run_ordinary env trivial))
  | finishAuthentication challengeId response => exact finishAuthentication_ordinary _ _ _
  | updatePreferences token body => exact updateAccountPreferences_ordinary _ _ _
  | logout token => exact logout_ordinary _ _
  | requestErasure token confirm => exact requestIdentityErasure_ordinary _ _ _
  | processErasures =>
    exact .bind .input (fun _ => .bind .read (fun _ => .each (fun _ _ => .handle (eraseIdentity_ordinary _ _ _)
      (fun _ => trivial))))

/-! ## Codes -/

/-- The next command counts an attempt at the code. -/
def isCounting (id : Text) : Option Command → Bool
  | some (.countAttempt id' _) => decide (id' = id)
  | _ => false

/-- A comparison that fails is counted next. -/
def CountsNext (c : Command) (_ : Outside) (s : Store) (rest : Call Unit) : Prop :=
  match c with
  | .verify id codeHash _ now =>
    s.verifications.any (fun v => v.isCompared id now && decide (v.codeHash = codeHash)) = false →
      isCounting id rest.pending = true
  | _ => True

/-- No command of the program commits a registration. -/
def Command.IsUnregistering : Command → Prop
  | .register _ => False
  | _ => True

theorem Command.IsOrdinary.unregistering {c : Command} (h : c.IsOrdinary) : c.IsUnregistering := by
  cases c with
  | register r => exact h
  | _ => trivial

theorem CountsNext.of_ordinary {c : Command} (h : c.IsOrdinary) (x : Outside) (s : Store) (rest : Call Unit) :
    CountsNext c x s rest := by
  cases c with
  | verify id codeHash tokenHash now => exact h.elim
  | _ => trivial

theorem verifyEmailVerificationCode_unregistering (env : Env) (verificationId code : Text) :
    (verifyEmailVerificationCode env verificationId code).Only Command.IsUnregistering := by
  refine .bind .throwIf (fun _ => .bind ((requiredId_ordinary _ _).mono (fun _ h => h.unregistering)) (fun id =>
    .bind ((ofExcept_ordinary _).mono (fun _ h => h.unregistering)) (fun code => .bind .read (fun _ => .bind .input (fun x =>
      .bind .throwIf (fun _ => .bind .input (fun _ => .bind (.perform trivial) (fun changes => ?_))))))))
  show Program.Only Command.IsUnregistering (if changes ≠ 1 then _ else _)
  split
  · have hcount : Ordinary (run env (.countAttempt id x.now)) := run_ordinary env trivial
    exact .bind (hcount.mono (fun _ h => h.unregistering)) (fun _ => trivial)
  · trivial

/-- **A request that verifies a code counts a code that failed.** -/
theorem verifyEmailVerificationCode_counts (env : Env) (verificationId code : Text) :
    (verifyEmailVerificationCode env verificationId code).Always CountsNext := by
  have hordinary : ∀ {α : Type} {p : Call α} {k : α → Call Unit}, Ordinary p → (∀ a, (k a).Always CountsNext) →
      (p.bind k).Always CountsNext :=
    fun h hk => Always.bind (h.always (fun _ _ _ _ hc => .of_ordinary hc _ _ _)) hk
  refine hordinary .throwIf (fun _ => hordinary (requiredId_ordinary _ _) (fun verificationId =>
    hordinary (ofExcept_ordinary _) (fun code => hordinary .read (fun _ => hordinary .input (fun x =>
      hordinary .throwIf (fun _ => hordinary .input (fun drawn => ?_)))))))
  refine Always.bind (fun y s => ⟨fun c hc => ?_, trivial⟩) (fun changes => ?_)
  · obtain rfl := Option.some.inj hc
    intro hfailed
    have hnone : verificationChanges (fun v => v.isCompared verificationId x.now &&
        decide (v.codeHash = env.codeHash verificationId code)) y s ≠ 1 := by
      have hzero : verificationChanges (fun v => v.isCompared verificationId x.now &&
          decide (v.codeHash = env.codeHash verificationId code)) y s = 0 := by
        rw [verificationChanges, Table.changes, List.countP_eq_zero]
        exact fun v hv => by simpa using List.any_eq_false.1 hfailed v hv
      omega
    show isCounting verificationId (Program.pending (if verificationChanges _ y s ≠ 1 then _ else _)) = true
    rw [if_pos hnone]
    exact decide_eq_true rfl
  · show Always CountsNext (if changes ≠ 1 then _ else _)
    split
    · exact hordinary (run_ordinary env trivial) (fun _ => trivial)
    · trivial

/-- No command of the program compares a code. -/
def Command.IsUncomparing : Command → Prop
  | .verify _ _ _ _ => False
  | _ => True

theorem Command.IsOrdinary.uncomparing {c : Command} (h : c.IsOrdinary) : c.IsUncomparing := by
  cases c with
  | verify id codeHash tokenHash now => exact h
  | _ => trivial

theorem finishRegistration_uncomparing (env : Env) (challengeId : Text) (response : Option Response) :
    (finishRegistration env challengeId response).Only Command.IsUncomparing := by
  have hordinary : ∀ {α : Type} {p : Call α} {k : α → Call Unit}, Ordinary p → (∀ a, (k a).Only Command.IsUncomparing) →
      (p.bind k).Only Command.IsUncomparing :=
    fun h hk => Only.bind (h.mono (fun _ hc => hc.uncomparing)) hk
  refine hordinary (requiredId_ordinary _ _) (fun id => ?_)
  cases response with
  | none => trivial
  | some response =>
    refine hordinary (takeChallenge_ordinary _ _) (fun challenge => hordinary .read (fun found => ?_))
    cases found with
    | none => trivial
    | some emailReservation =>
      exact hordinary (verifyRegistrationCredential_ordinary _ _) (fun _ => hordinary (filled_ordinary _) (fun _ =>
        hordinary (filled_ordinary _) (fun _ => hordinary (filled_ordinary _) (fun _ => hordinary .input (fun _ =>
          hordinary .read (fun _ => hordinary .throwIf (fun _ => .bind (.perform trivial) (fun _ => .throwIf))))))))

/-- **Every request counts a code that failed.** -/
theorem handle_counts (env : Env) (r : Request) : (handle env r).Always CountsNext := by
  by_cases hregister : ∃ id response, r = .finishRegistration id response
  · obtain ⟨id, response, rfl⟩ := hregister
    refine (finishRegistration_uncomparing env id response).always (fun c _ _ _ hc => ?_)
    cases c with
    | verify id codeHash tokenHash now => exact hc.elim
    | _ => trivial
  by_cases hverify : ∃ id code, r = .verifyCode id code
  · obtain ⟨id, code, rfl⟩ := hverify
    exact verifyEmailVerificationCode_counts env id code
  · exact (handle_ordinary env (fun id code h => hverify ⟨id, code, h⟩)
      (fun id response h => hregister ⟨id, response, h⟩)).always (fun _ _ _ _ hc => .of_ordinary hc _ _ _)

/-! ## Registrations -/

/-- The commits of registrations under a challenge. -/
def Command.registers (env : Env) (challengeId : Text) (x : Outside) (c : Command) (s : Store) : Nat :=
  match c with
  | .register r => if r.challengeId = challengeId ∧ (c.commit env x s).isSome = true then 1 else 0
  | _ => 0

/-- The deletions of a challenge that somebody takes. -/
def Command.takes (challengeId : Text) (c : Command) (s : Store) : Nat :=
  match c with
  | .takeChallenge id kind => if id = challengeId ∧ s.challenges.any (isChallenge id kind) = true then 1 else 0
  | _ => 0

theorem Command.IsUnregistering.registers {c : Command} (h : c.IsUnregistering) (env : Env) (challengeId : Text)
    (x : Outside) (s : Store) : c.registers env challengeId x s = 0 := by
  cases c with
  | register r => exact h.elim
  | _ => rfl

/-- What a registration may still commit under the challenge, once it was taken. -/
def allowance (challengeId id : Text) : Nat := if id = challengeId then 1 else 0

section Affords

variable {env : Env} {challengeId : Text}

abbrev AffordsCommits (env : Env) (challengeId : Text) {α : Type} (p : Call α) (n : Nat) (Q : α → Nat) : Prop :=
  p.Affords (fun _ c s => c.takes challengeId s) (fun x c s => c.registers env challengeId x s) n Q

theorem affords_of_unregistering {α : Type} {p : Call α} {n : Nat} (h : p.Only Command.IsUnregistering) :
    AffordsCommits env challengeId p n (fun _ => n) :=
  (h.mono (fun _ hc x s => hc.registers env challengeId x s)).affords

theorem Ordinary.affords {α : Type} {p : Call α} {n : Nat} (h : Ordinary p) :
    AffordsCommits env challengeId p n (fun _ => n) :=
  affords_of_unregistering (h.mono (fun _ hc => hc.unregistering))

/-- Who takes a challenge may commit once under it. -/
theorem takeChallenge_affords (id : Text) (kind : ChallengeKind) :
    AffordsCommits env challengeId (takeChallenge id kind) 0 (fun row => allowance challengeId row.id) := by
  intro x s
  refine ⟨Nat.zero_le _, ?_⟩
  dsimp only
  cases hrow : s.challenges.find? (isChallenge id kind) with
  | none => trivial
  | some row =>
    show AffordsCommits env challengeId (Program.bind (Program.perform _ _) _) 0 _
    have hid : row.id = id := by
      have := List.find?_some hrow
      simp only [isChallenge, Bool.and_eq_true, decide_eq_true_eq] at this
      exact this.1
    refine Affords.bind (Q := fun changes => if changes = 1 then allowance challengeId row.id else 0)
      (Affords.perform (fun x s => ?_)) (fun changes => ?_)
    · show 0 + (if Table.changes (isChallenge id kind) s.challenges = 1 then allowance challengeId row.id else 0) ≤
        0 + (if id = challengeId ∧ s.challenges.any (isChallenge id kind) = true then 1 else 0)
      by_cases hchanges : Table.changes (isChallenge id kind) s.challenges = 1
      · have hany : s.challenges.any (isChallenge id kind) = true := by
          obtain ⟨k, hk, htest⟩ := List.countP_pos_iff.1 (Nat.lt_of_lt_of_eq Nat.one_pos hchanges.symm)
          exact List.any_eq_true.2 ⟨k, hk, htest⟩
        rw [if_pos hchanges, allowance, hid]
        by_cases hch : id = challengeId
        · rw [if_pos hch, if_pos ⟨hch, hany⟩]
        · rw [if_neg hch]
          omega
      · rw [if_neg hchanges]
        exact Nat.zero_le _
    · refine Affords.bind (Q := fun _ => allowance challengeId row.id) (Affords.throwIf (fun hone => ?_)) (fun _ => ?_)
      · have hchanges : changes = 1 := by simpa using hone
        rw [if_pos hchanges]
      · exact Affords.bind Only.input.affords (fun x => Affords.bind Only.throwIf.affords (fun _ => Nat.le_refl _))

/-- **A registration commits once for each challenge that it took.** -/
theorem finishRegistration_affords (id : Text) (response : Option Response) :
    AffordsCommits env challengeId (finishRegistration env id response) 0 (fun _ => 0) := by
  refine Affords.bind (requiredId_ordinary _ _).affords (fun id => ?_)
  cases response with
  | none => trivial
  | some response =>
    refine Affords.bind (takeChallenge_affords id .registration) (fun challenge => Affords.bind Only.read.affords (fun found => ?_))
    cases found with
    | none => trivial
    | some emailReservation =>
      refine Affords.bind (verifyRegistrationCredential_ordinary _ _).affords (fun credential =>
        Affords.bind (filled_ordinary _).affords (fun userId => Affords.bind (filled_ordinary _).affords (fun consent =>
          Affords.bind (filled_ordinary _).affords (fun verifiedEmailHash => Affords.bind Only.input.affords (fun x =>
            Affords.bind Only.read.affords (fun existingAccount => Affords.bind Only.throwIf.affords (fun _ =>
              Affords.bind (Q := fun _ => 0) (Affords.perform (fun x s => ?_)) (fun _ => Only.throwIf.affords))))))))
      show (if challenge.id = challengeId ∧ _ then 1 else 0) + 0 ≤ allowance challengeId challenge.id + 0
      unfold allowance
      by_cases hch : challenge.id = challengeId
      · rw [if_pos hch]
        split <;> omega
      · rw [if_neg (fun h => hch h.1)]
        omega

theorem handle_affords (challengeId : Text) (r : Request) : AffordsCommits env challengeId (handle env r) 0 (fun _ => 0) := by
  by_cases hregister : ∃ id response, r = .finishRegistration id response
  · obtain ⟨id, response, rfl⟩ := hregister
    exact finishRegistration_affords id response
  by_cases hverify : ∃ id code, r = .verifyCode id code
  · obtain ⟨id, code, rfl⟩ := hverify
    exact affords_of_unregistering (verifyEmailVerificationCode_unregistering env id code)
  · exact (handle_ordinary env (fun id code h => hverify ⟨id, code, h⟩)
      (fun id response h => hregister ⟨id, response, h⟩)).affords

end Affords

/-! ## What the requests know -/

theorem ordinary_obeys {env : Env} {α : Type} {p : Call α} (h : Ordinary p) :
    p.Obeys (accounts env) (fun _ => True) (fun _ _ => True) :=
  h.obeys (fun c s hc => by
    cases c with
    | register r => exact hc.elim
    | _ => trivial)

theorem verifyEmailVerificationCode_obeys (env : Env) (verificationId code : Text) :
    (verifyEmailVerificationCode env verificationId code).Obeys (accounts env) (fun _ => True) (fun _ _ => True) :=
  (verifyEmailVerificationCode_unregistering env verificationId code).obeys (fun c s hc => by
    cases c with
    | register r => exact hc.elim
    | _ => trivial)

theorem obeys_filled {env : Env} {α β : Type} {P : Store → Prop} {R : β → Store → Prop} {o : Option α} {k : α → Call β}
    (hk : ∀ a, o = some a → (k a).Obeys (accounts env) P R) : ((filled o).bind k).Obeys (accounts env) P R := by
  cases o with
  | none => trivial
  | some a => exact hk a rfl

/-- **A registration is committed for a reservation that was made.** -/
theorem finishRegistration_obeys (env : Env) (id : Text) (response : Option Response) :
    (finishRegistration env id response).Obeys (accounts env) (fun _ => True) (fun _ _ => True) := by
  refine Obeys.bind (fun id => ?_) (ordinary_obeys (requiredId_ordinary _ _))
  cases response with
  | none => trivial
  | some response =>
    refine Obeys.bind (fun challenge => ?_) (ordinary_obeys (takeChallenge_ordinary _ _))
    refine Obeys.bind_read .true (fun found s => ∀ v, found = some v →
      challenge.verifiedEmailHash = some v.emailHash ∧ ⟨v.id, challenge.id, v.emailHash⟩ ∈ s.reservations)
      (fun found => ?_) (fun s hs _ v hv => ?_) (fun found => ?_)
    · exact fun x c s hi hf h v hv => ⟨(h v hv).1, stable_reserved env _ x c s hi hf (h v hv).2⟩
    · have hreserved := List.find?_some hv
      simp only [Verification.isReservedBy, Bool.and_eq_true, decide_eq_true_eq] at hreserved
      exact ⟨hreserved.1.1.1.2, hs.made v (List.mem_of_find?_eq_some hv) challenge.id hreserved.1.1.2⟩
    cases found with
    | none => trivial
    | some emailReservation =>
      have hknown : (accounts env).Stable (fun s => challenge.verifiedEmailHash = some emailReservation.emailHash ∧
          ⟨emailReservation.id, challenge.id, emailReservation.emailHash⟩ ∈ s.reservations) :=
        .and (.const _) (stable_reserved env _)
      refine Obeys.weaken (P := fun s => challenge.verifiedEmailHash = some emailReservation.emailHash ∧
        ⟨emailReservation.id, challenge.id, emailReservation.emailHash⟩ ∈ s.reservations) ?_
        (fun s _ h => h.2 emailReservation rfl)
      have hcall : ∀ {α : Type} {p : Call α} {k : α → Call Unit}, Ordinary p →
          (∀ a, (k a).Obeys (accounts env) (fun s => challenge.verifiedEmailHash = some emailReservation.emailHash ∧
            ⟨emailReservation.id, challenge.id, emailReservation.emailHash⟩ ∈ s.reservations) (fun _ _ => True)) →
          (p.bind k).Obeys (accounts env) (fun s => challenge.verifiedEmailHash = some emailReservation.emailHash ∧
            ⟨emailReservation.id, challenge.id, emailReservation.emailHash⟩ ∈ s.reservations) (fun _ _ => True) :=
        fun hp hk => Obeys.call hknown (ordinary_obeys hp) (fun _ _ _ => trivial)
          (fun a => (hk a).weaken (fun _ _ h => h.1))
      refine hcall (verifyRegistrationCredential_ordinary _ _) (fun credential => hcall (filled_ordinary _) (fun userId =>
        hcall (filled_ordinary _) (fun consent => ?_)))
      refine obeys_filled (fun verifiedEmailHash hhash => ?_)
      refine hcall .input (fun x => hcall .read (fun existingAccount => hcall .throwIf (fun _ => ?_)))
      refine Obeys.bind (Q := fun _ _ => True) (fun committed => ordinary_obeys .throwIf)
        (Obeys.perform (fun s _ h => ?_) (fun _ => .true) (fun _ _ _ _ _ => trivial))
      rw [hhash] at h
      obtain rfl := Option.some.inj h.1
      exact h.2

theorem handle_obeys (env : Env) (r : Request) : (handle env r).Obeys (accounts env) (fun _ => True) (fun _ _ => True) := by
  by_cases hregister : ∃ id response, r = .finishRegistration id response
  · obtain ⟨id, response, rfl⟩ := hregister
    exact finishRegistration_obeys env id response
  by_cases hverify : ∃ id code, r = .verifyCode id code
  · obtain ⟨id, code, rfl⟩ := hverify
    exact verifyEmailVerificationCode_obeys env id code
  · exact ordinary_obeys (handle_ordinary env (fun id code h => hverify ⟨id, code, h⟩)
      (fun id response h => hregister ⟨id, response, h⟩))

/-! ## The world -/

abbrev AccountsState := Interleaved Outside Command Store AccountError Request

/-- Requests, each advancing one statement at a time, and stopping for good anywhere. -/
def accountsWorld (env : Env) : Machine AccountsState (Interleaved.Action Outside Request) :=
  Interleaved.machine (accounts env) (handle env)

def accountsStart : AccountsState := Interleaved.start .empty

/-- The tables after a run, and what was run where it may. -/
theorem accounts_sound {env : Env} {C : AccountsState → Interleaved.Action Outside Request → Prop} {w : AccountsState}
    (hrun : (accountsWorld env).Steps C accountsStart w) : w.store.Sound ∧
      ∀ e ∈ w.log, e.before.Sound ∧ e.command.Fact e.before ∧ e.before.reservations ⊆ w.store.reservations := by
  refine Discipline.log_invariant (D := accounts env) (J := fun log s => ∀ e ∈ log,
    e.before.Sound ∧ e.command.Fact e.before ∧ e.before.reservations ⊆ s.reservations) (handle_obeys env) .empty
    (fun _ h => absurd h List.not_mem_nil) (fun log e hi hfact h d hd => ?_) hrun
  have hgrows : e.before.reservations ⊆ (e.command.exec env e.input e.before).reservations :=
    fun r hr => stable_reserved env r e.input e.command e.before hi hfact hr
  rcases List.mem_append.1 hd with hd | hd
  · exact ⟨(h d hd).1, (h d hd).2.1, List.Subset.trans (h d hd).2.2 hgrows⟩
  · obtain rfl := List.mem_singleton.1 hd
    exact ⟨hi, hfact, hgrows⟩

/-! ## Schedules

A schedule is played with identifiers that count its statements. -/

/-- A request comes in, or the program of a request makes its next accesses, all of which draw one secret. -/
inductive Part
  | request (r : Request)
  | go (i n : Nat) (secret : Text)

def sampleOutside (n : Nat) (secret : Text) : Outside := ⟨1, Portal.sampleUuid n, secret, 0, 0, false, false⟩

def play : Nat → List Part → List (Interleaved.Action Outside Request)
  | _, [] => []
  | k, .request r :: parts => .start r :: play k parts
  | k, .go i n secret :: parts =>
    (List.range n).map (fun j => .advance i (sampleOutside (k + j) secret)) ++ play (k + n) parts

theorem run_play (env : Env) (C : AccountsState → Interleaved.Action Outside Request → Prop) (parts : List Part)
    {p : AccountsState → Bool} (hmeets : (accountsWorld env).runMeets C accountsStart (play 0 parts))
    (h : ((accountsWorld env).run accountsStart (play 0 parts)).any p = true) :
    ∃ w, (accountsWorld env).Steps C accountsStart w ∧ p w = true := by
  obtain ⟨w, hw, hp⟩ := (Option.any_eq_true _ _).1 h
  exact ⟨w, Machine.steps_of_run hw hmeets, hp⟩

/-- Hashes are what is hashed. -/
def sampleEnv : Env := ⟨true, fun t => t, fun t => t, 0⟩

def sampleCode : Text := "123456".toList

def sampleToken : Text := List.replicate 32 'a'

def sampleProfile (email : String) : Profile := ⟨email.toList, []⟩

def sampleBody (email : String) : AccountBody := ⟨.ok (sampleProfile email), .ok ⟨true, false, false⟩, some sampleToken⟩

end Accounts
end Adg
