import AdgLang.EmailCodes
/-!
# Registrations — a passkey is added by whoever controls the address

A registration that commits adds a passkey and a session.  It consumes its verification, and leaves the account under the
address that was verified, exactly where both still are as they were found before: the batch does not look at what its
statements changed (`registrations_controlled_iff`).
-/
namespace Adg
namespace Accounts

open Interleaved (total)

/-- The account has the address that was verified for the registration, and the registration consumed the
verification. -/
structure Controlled (env : Env) (e : Ran Outside Command Store) (r : Registration) : Prop where
  address : ∃ u ∈ (e.command.exec env e.input e.before).users, u.id = r.userId ∧
    u.verifiedEmailHash = some r.verifiedEmailHash
  consumed : ∃ v ∈ e.before.verifications, v.id = r.verificationId ∧ v.reservationId = some r.challengeId ∧
    v.consumedAt = none ∧ v.verifiedAt ≠ none ∧ v.emailHash = r.verifiedEmailHash ∧
      ∀ v' ∈ (e.command.exec env e.input e.before).verifications, v'.id ≠ v.id

/-- The verification is still reserved, and an account that was found is still under the address. -/
def Registration.IsUndisturbed (r : Registration) (s : Store) : Prop :=
  s.verifications.any r.isReserved = true ∧ (r.isExisting = true → s.users.any r.isAccount = true)

/-- The registrations of a log that were committed. -/
def Commits (env : Env) (log : List (Ran Outside Command Store)) (e : Ran Outside Command Store) (r : Registration) : Prop :=
  e ∈ log ∧ e.command = .register r ∧ (e.command.commit env e.input e.before).isSome = true

theorem Registration.isReserved_iff {r : Registration} {v : Verification} : r.isReserved v = true ↔
    v.id = r.verificationId ∧ v.reservationId = some r.challengeId ∧ v.consumedAt = none := by
  simp only [isReserved, Bool.and_eq_true, decide_eq_true_eq, Option.isNone_iff_eq_none, and_assoc]

theorem Registration.isAccount_iff {r : Registration} {u : User} : r.isAccount u = true ↔
    u.id = r.userId ∧ u.verifiedEmailHash = some r.verifiedEmailHash := by
  simp only [isAccount, Bool.and_eq_true, decide_eq_true_eq]

/-- The tables after a registration. -/
theorem register_exec {env : Env} {x : Outside} {s : Store} {r : Registration}
    (h : ((Command.register r).commit env x s).isSome = true) :
    (Command.register r).exec env x s = (s.registered r).deleteVerifications r.isReserved := by
  obtain ⟨s', happly, hexec⟩ := Command.committed_cases h
  rw [hexec]
  simp only [Command.apply, Store.register] at happly
  split at happly
  · exact (Option.some.inj happly).symm
  · cases happly

/-- **What a registration commits is under control exactly where it was not disturbed.** -/
theorem controlled_iff {env : Env} {e : Ran Outside Command Store} {r : Registration} (hsound : e.before.Sound)
    (hc : e.command = .register r) (hfact : e.command.Fact e.before)
    (hcommitted : (e.command.commit env e.input e.before).isSome = true) :
    Controlled env e r ↔ r.IsUndisturbed e.before := by
  have hexec : e.command.exec env e.input e.before = (e.before.registered r).deleteVerifications r.isReserved := by
    rw [hc] at hcommitted ⊢
    exact register_exec hcommitted
  rw [hc] at hfact
  have husers : (e.command.exec env e.input e.before).users = (e.before.registered r).users := by
    rw [hexec]
    rfl
  constructor
  · rintro ⟨⟨u, hu, hid, hhash⟩, v, hv, hvid, hreserved, hopen, -⟩
    refine ⟨List.any_eq_true.2 ⟨v, hv, Registration.isReserved_iff.2 ⟨hvid, hreserved, hopen⟩⟩, fun hexisting => ?_⟩
    rw [husers] at hu
    simp only [Store.registered, hexisting, if_true] at hu
    obtain ⟨u₀, hu₀, rfl⟩ := Table.mem_update.1 hu
    refine List.any_eq_true.2 ⟨u₀, hu₀, ?_⟩
    by_cases haccount : r.isAccount u₀ = true
    · exact haccount
    · rw [if_neg haccount] at hid hhash
      exact Registration.isAccount_iff.2 ⟨hid, hhash⟩
  · rintro ⟨hreserved, haccount⟩
    obtain ⟨v, hv, htest⟩ := List.any_eq_true.1 hreserved
    obtain ⟨hvid, hchallenge, hopen⟩ := Registration.isReserved_iff.1 htest
    refine ⟨?_, v, hv, hvid, hchallenge, hopen, hsound.verified v hv (by rw [hchallenge]; nofun), ?_, fun v' hv' hid => ?_⟩
    · rw [husers]
      cases hexisting : r.isExisting with
      | true =>
        obtain ⟨u, hu, hmatch⟩ := List.any_eq_true.1 (haccount hexisting)
        obtain ⟨hid, hhash⟩ := Registration.isAccount_iff.1 hmatch
        refine ⟨{ u with profile := r.profile, consent := r.consent }, ?_, hid, hhash⟩
        simp only [Store.registered, hexisting, if_true]
        exact Table.mem_update.2 ⟨u, hu, by rw [if_pos hmatch]⟩
      | false =>
        refine ⟨r.user, ?_, rfl, rfl⟩
        simp only [Store.registered, hexisting]
        exact List.mem_append_right _ (List.mem_singleton.2 rfl)
    · have hmade := hsound.made v hv r.challengeId hchallenge
      rw [hvid] at hmade
      exact congrArg Reservation.emailHash (hsound.once.eq_of_key hmade hfact rfl)
    · rw [hexec] at hv'
      obtain ⟨hmem, hnot⟩ := mem_deleteVerifications.1 hv'
      have hmem : v' ∈ e.before.verifications := hmem
      obtain rfl := hsound.keys.verifications.eq_of_key hmem hv hid
      rw [htest] at hnot
      cases hnot

/-- **Registrations are under control exactly where none is disturbed**, and a challenge leads to at most one. -/
theorem registrations_controlled_iff {env : Env} {w : AccountsState} (hrun : (accountsWorld env).Reaches accountsStart w) :
    (∀ challengeId, total (fun x c s => c.registers env challengeId x s) w.log ≤ 1) ∧
      ((∀ e r, Commits env w.log e r → Controlled env e r) ↔ ∀ e r, Commits env w.log e r → r.IsUndisturbed e.before) := by
  obtain ⟨-, hlog⟩ := accounts_sound hrun
  refine ⟨registered_once hrun, forall_congr' (fun e => forall_congr' (fun r => forall_congr' (fun hcommits => ?_)))⟩
  obtain ⟨he, hc, hcommitted⟩ := hcommits
  obtain ⟨hsound, hfact, -⟩ := hlog e he
  exact controlled_iff hsound hc hfact hcommitted

instance (r : Registration) (s : Store) : Decidable (r.IsUndisturbed s) :=
  inferInstanceAs (Decidable (_ ∧ (_ → _)))

/-- Of each registration of the log that was committed, whether it was undisturbed. -/
def undisturbed (env : Env) (e : Ran Outside Command Store) : Option Bool :=
  match e.command with
  | .register r => if (e.command.commit env e.input e.before).isSome then some (decide (r.IsUndisturbed e.before)) else none
  | _ => none

theorem undisturbed_of_commits {env : Env} {log : List (Ran Outside Command Store)} {e : Ran Outside Command Store}
    {r : Registration} (h : Commits env log e r) : undisturbed env e = some (decide (r.IsUndisturbed e.before)) := by
  obtain ⟨-, hc, hcommitted⟩ := h
  unfold undisturbed
  rw [hc] at hcommitted ⊢
  simp only [hcommitted, if_true]

theorem registrations_controlled_iff_once : ∃ w, (accountsWorld sampleEnv).Reaches accountsStart w ∧
    w.log.filterMap (undisturbed sampleEnv) = [true] ∧ ∀ e r, Commits sampleEnv w.log e r → Controlled sampleEnv e r := by
  obtain ⟨w, hrun, hp⟩ := run_play sampleEnv (fun _ _ => True) registersOnce
    (p := fun w => decide (w.log.filterMap (undisturbed sampleEnv) = [true])) (Machine.runMeets_true _ _)
    (by decide +kernel)
  have hp := of_decide_eq_true hp
  refine ⟨w, hrun, hp, (registrations_controlled_iff hrun).2.2 (fun e r hcommits => ?_)⟩
  have hmem : decide (r.IsUndisturbed e.before) ∈ w.log.filterMap (undisturbed sampleEnv) :=
    List.mem_filterMap.2 ⟨e, hcommits.1, undisturbed_of_commits hcommits⟩
  rw [hp] at hmem
  exact of_decide_eq_true (List.mem_singleton.1 hmem)

/-- A second registration finds the account under its address; the account then changes its address, and the batch of the
registration is run. -/
def registersLate : List Part := registersOnce ++
  [.request (.sendCode (.ok "mail".toList) []), .go 5 7 sampleCode,
    .request (.verifyCode (Portal.sampleUuidText 34) sampleCode), .go 6 4 sampleToken,
    .request (.beginRegistration (sampleBody "mail")), .go 7 7 "challenge2".toList,
    .request (.finishRegistration (Portal.sampleUuidText 47) (some (fun _ => some ⟨"key2".toList, [], 0⟩))),
    .go 8 6 "session2".toList,
    .request (.sendCode (.ok "mail2".toList) []), .go 9 7 sampleCode,
    .request (.verifyCode (Portal.sampleUuidText 58) sampleCode), .go 10 4 sampleToken,
    .request (.updatePreferences (some "session".toList) (sampleBody "mail2")), .go 11 6 [], .go 8 1 "session2".toList]

theorem registrations_uncontrolled : ¬ ∀ (env : Env) (w : AccountsState), (accountsWorld env).Reaches accountsStart w →
    ∀ e r, Commits env w.log e r → Controlled env e r := by
  intro h
  obtain ⟨w, hrun, hp⟩ := run_play sampleEnv (fun _ _ => True) registersLate
    (p := fun w => decide (w.log.filterMap (undisturbed sampleEnv) = [true, false])) (Machine.runMeets_true _ _)
    (by decide +kernel)
  have hfalse : false ∈ w.log.filterMap (undisturbed sampleEnv) := by
    rw [of_decide_eq_true hp]
    decide
  obtain ⟨e, he, hundisturbed⟩ := List.mem_filterMap.1 hfalse
  unfold undisturbed at hundisturbed
  split at hundisturbed
  · rename_i r hc
    split at hundisturbed
    · rename_i hcommitted
      obtain ⟨hsound, hfact, -⟩ := (accounts_sound hrun).2 e he
      have hcontrolled := h sampleEnv w hrun e r ⟨he, hc, hcommitted⟩
      exact absurd ((controlled_iff hsound hc hfact hcommitted).1 hcontrolled) (of_decide_eq_false (Option.some.inj hundisturbed))
    · cases hundisturbed
  · cases hundisturbed

end Accounts
end Adg
