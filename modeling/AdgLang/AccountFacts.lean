import AdgLang.AccountRequests
import AdgLang.Histories
/-!
# AccountFacts — what the statements about accounts keep

What a command may do to a verification (`Command.verifications_cases`) and to the reservations, the invariant of the
tables (`Store.Sound`), and the discipline under which the requests run their commands: a registration commits only what
a reservation was made for.
-/
namespace Adg
namespace Accounts

open Portal (isUuid Uuid oldest)

/-! ## What a command does to a verification -/

/-- How a row is left by a command. -/
inductive VerificationStep (c : Command) (x : Outside) (v : Verification) : Verification → Prop
  | same : VerificationStep c x v v
  | consumed (now : Nat) : VerificationStep c x v (consume now v)
  | verified (codeHash tokenHash : Text) (now : Nat) (hc : c = .verify v.id codeHash tokenHash now)
      (hcompared : v.isCompared v.id now = true) : VerificationStep c x v (verified tokenHash now v)
  | tried (now : Nat) (hc : c = .countAttempt v.id now) (hopen : v.isOpen = true) : VerificationStep c x v (tried now v)
  | reserved (e : VerifiedEmail) (userId : Text) (profile : Profile) (consent : Consent) (challenge : Text) (now : Nat)
      (hc : c = .reserve e userId profile consent challenge now) (hverified : v.isVerified e now = true) :
      VerificationStep c x v (reserved x.uuid.1 now v)

/-- The row is new: its identifier was just drawn, and it may be tried. -/
def Store.IsNew (s s' : Store) (v : Verification) : Prop :=
  v.id ∉ s.drawn ∧ v.id ∈ s'.drawn ∧ v.attempts = 0 ∧ v.verifiedAt = none ∧ v.reservedAt = none ∧ v.reservationId = none

theorem VerificationStep.id {c : Command} {x : Outside} {v v' : Verification} (h : VerificationStep c x v v') :
    v'.id = v.id ∧ v'.emailHash = v.emailHash := by
  cases h <;> exact ⟨rfl, rfl⟩

theorem mem_deleteVerifications {p : Verification → Bool} {s : Store} {v : Verification} :
    v ∈ (s.deleteVerifications p).verifications ↔ v ∈ s.verifications ∧ p v = false := Table.mem_delete

section Cases

variable {env : Env} {x : Outside} {c : Command} {s s' : Store} (h : c.apply env x s = some s')
include h

/-- **A row of the verifications after a command was there before it, or is new.** -/
theorem Command.verifications_cases {v' : Verification} (hv' : v' ∈ s'.verifications) :
    (∃ v ∈ s.verifications, VerificationStep c x v v') ∨ s.IsNew s' v' := by
  cases c with
  | pruneAuthRecords now =>
    obtain rfl := Option.some.inj h
    obtain ⟨v, hv, rfl⟩ := Table.mem_update.1 (mem_deleteVerifications.1 hv').1
    split
    · exact .inl ⟨v, hv, .consumed now⟩
    · exact .inl ⟨v, hv, .same⟩
  | insertVerification emailHash requestFingerprint code now =>
    simp only [apply] at h
    split at h
    · cases h
    · rename_i hdrawn
      split at h
      · obtain rfl := Option.some.inj h
        rcases List.mem_append.1 hv' with hv' | hv'
        · exact .inl ⟨v', hv', .same⟩
        · obtain rfl := List.mem_singleton.1 hv'
          exact .inr ⟨hdrawn, List.mem_cons_self, rfl, rfl, rfl, rfl⟩
      · obtain rfl := Option.some.inj h
        exact .inl ⟨v', hv', .same⟩
  | deleteVerification id =>
    obtain rfl := Option.some.inj h
    exact .inl ⟨v', (mem_deleteVerifications.1 hv').1, .same⟩
  | consumeOthers emailHash id now =>
    obtain rfl := Option.some.inj h
    obtain ⟨v, hv, rfl⟩ := Table.mem_update.1 hv'
    split
    · exact .inl ⟨v, hv, .consumed now⟩
    · exact .inl ⟨v, hv, .same⟩
  | verify id codeHash tokenHash now =>
    obtain rfl := Option.some.inj h
    obtain ⟨v, hv, rfl⟩ := Table.mem_update.1 hv'
    split
    · rename_i hcompared
      rw [Bool.and_eq_true] at hcompared
      have hid : v.id = id := by
        have := hcompared.1
        simp only [Verification.isCompared, Bool.and_eq_true, decide_eq_true_eq] at this
        exact this.1.1
      subst hid
      exact .inl ⟨v, hv, .verified codeHash tokenHash now rfl hcompared.1⟩
    · exact .inl ⟨v, hv, .same⟩
  | countAttempt id now =>
    obtain rfl := Option.some.inj h
    obtain ⟨v, hv, rfl⟩ := Table.mem_update.1 hv'
    split
    · rename_i hopen
      simp only [Bool.and_eq_true, decide_eq_true_eq] at hopen
      obtain ⟨rfl, hopen⟩ := hopen
      exact .inl ⟨v, hv, .tried now rfl hopen⟩
    · exact .inl ⟨v, hv, .same⟩
  | reserve e userId profile consent challenge now =>
    simp only [apply] at h
    split at h
    · cases h
    · obtain rfl := Option.some.inj h
      obtain ⟨v, hv, rfl⟩ := Table.mem_update.1 hv'
      split
      · rename_i hverified
        exact .inl ⟨v, hv, .reserved e userId profile consent challenge now rfl hverified⟩
      · exact .inl ⟨v, hv, .same⟩
  | insertChallenge challenge kind userId now =>
    simp only [apply] at h
    split at h
    · cases h
    · obtain rfl := Option.some.inj h
      exact .inl ⟨v', hv', .same⟩
  | register r =>
    simp only [apply, Store.register] at h
    split at h
    · obtain rfl := Option.some.inj h
      exact .inl ⟨v', (mem_deleteVerifications.1 hv').1, .same⟩
    · cases h
  | changeAddress e userId profile consent now =>
    obtain rfl := Option.some.inj h
    exact .inl ⟨v', (mem_deleteVerifications.1 hv').1, .same⟩
  | addPasskey passkey =>
    simp only [apply] at h
    split at h
    · obtain rfl := Option.some.inj h
      exact .inl ⟨v', hv', .same⟩
    · cases h
  | signIn credentialId newCounter session =>
    simp only [apply] at h
    split at h
    · obtain rfl := Option.some.inj h
      exact .inl ⟨v', hv', .same⟩
    · cases h
  | erase id userId emailHash =>
    obtain rfl := Option.some.inj h
    exact .inl ⟨v', (mem_deleteVerifications.1 hv').1, .same⟩
  | _ =>
    obtain rfl := Option.some.inj h
    exact .inl ⟨v', hv', .same⟩

/-- A challenge after a command was there before it, but for what it refers to, or its identifier is new. -/
theorem Command.challenges_cases {k' : Challenge} (hk' : k' ∈ s'.challenges) :
    (∃ k ∈ s.challenges, k'.id = k.id) ∨ (k'.id ∉ s.drawn ∧ k'.id ∈ s'.drawn) := by
  have hdeleted : ∀ {p : Verification → Bool} {t : Store}, k' ∈ (t.deleteVerifications p).challenges →
      ∃ k ∈ t.challenges, k'.id = k.id := by
    intro p t hmem
    obtain ⟨k, hk, rfl⟩ := Table.mem_update.1 hmem
    refine ⟨k, hk, ?_⟩
    split <;> rfl
  cases c with
  | pruneAuthRecords now =>
    obtain rfl := Option.some.inj h
    obtain ⟨k, hk, hid⟩ := hdeleted hk'
    exact .inl ⟨k, (Table.mem_delete.1 hk).1, hid⟩
  | insertVerification emailHash requestFingerprint code now =>
    simp only [apply] at h
    split at h
    · cases h
    · split at h <;> obtain rfl := Option.some.inj h <;> exact .inl ⟨k', hk', rfl⟩
  | deleteVerification id =>
    obtain rfl := Option.some.inj h
    exact .inl (hdeleted hk')
  | reserve e userId profile consent challenge now =>
    simp only [apply] at h
    split at h
    · cases h
    · rename_i hrefused
      obtain rfl := Option.some.inj h
      rcases List.mem_append.1 hk' with hk' | hk'
      · exact .inl ⟨k', hk', rfl⟩
      · obtain rfl := List.mem_singleton.1 hk'
        exact .inr ⟨fun hdrawn => hrefused (.inl hdrawn), List.mem_cons_self⟩
  | insertChallenge challenge kind userId now =>
    simp only [apply] at h
    split at h
    · cases h
    · rename_i hdrawn
      obtain rfl := Option.some.inj h
      rcases List.mem_append.1 hk' with hk' | hk'
      · exact .inl ⟨k', hk', rfl⟩
      · obtain rfl := List.mem_singleton.1 hk'
        exact .inr ⟨hdrawn, List.mem_cons_self⟩
  | deleteChallenge id =>
    obtain rfl := Option.some.inj h
    exact .inl ⟨k', (Table.mem_delete.1 hk').1, rfl⟩
  | takeChallenge id kind =>
    obtain rfl := Option.some.inj h
    exact .inl ⟨k', (Table.mem_delete.1 hk').1, rfl⟩
  | register r =>
    simp only [apply, Store.register] at h
    split at h
    · obtain rfl := Option.some.inj h
      exact .inl (hdeleted hk')
    · cases h
  | changeAddress e userId profile consent now =>
    obtain rfl := Option.some.inj h
    exact .inl (hdeleted hk')
  | addPasskey passkey =>
    simp only [apply] at h
    split at h
    · obtain rfl := Option.some.inj h
      exact .inl ⟨k', hk', rfl⟩
    · cases h
  | signIn credentialId newCounter session =>
    simp only [apply] at h
    split at h
    · obtain rfl := Option.some.inj h
      exact .inl ⟨k', hk', rfl⟩
    · cases h
  | erase id userId emailHash =>
    obtain rfl := Option.some.inj h
    obtain ⟨k, hk, hid⟩ := hdeleted hk'
    exact .inl ⟨k, (Table.mem_delete.1 hk).1, hid⟩
  | _ =>
    obtain rfl := Option.some.inj h
    exact .inl ⟨k', hk', rfl⟩

/-- What a command draws, and which reservations it makes. -/
theorem Command.drawn_cases :
    (s'.drawn = s.drawn ∧ s'.reservations = s.reservations) ∨
      (x.uuid.1 ∉ s.drawn ∧ s'.drawn = x.uuid.1 :: s.drawn ∧ (s'.reservations = s.reservations ∨
        ∃ e userId profile consent challenge now, c = .reserve e userId profile consent challenge now ∧
          s'.reservations = s.reservations ++ ((s.verifications.filter (Verification.isVerified e now)).map
            (fun v => ⟨v.id, x.uuid.1, v.emailHash⟩)))) := by
  cases c with
  | insertVerification emailHash requestFingerprint code now =>
    simp only [apply] at h
    split at h
    · cases h
    · rename_i hdrawn
      split at h
      · obtain rfl := Option.some.inj h
        exact .inr ⟨hdrawn, rfl, .inl rfl⟩
      · obtain rfl := Option.some.inj h
        exact .inl ⟨rfl, rfl⟩
  | reserve e userId profile consent challenge now =>
    simp only [apply] at h
    split at h
    · cases h
    · rename_i hrefused
      obtain rfl := Option.some.inj h
      exact .inr ⟨fun hdrawn => hrefused (.inl hdrawn), rfl, .inr ⟨e, userId, profile, consent, challenge, now, rfl, rfl⟩⟩
  | insertChallenge challenge kind userId now =>
    simp only [apply] at h
    split at h
    · cases h
    · rename_i hdrawn
      obtain rfl := Option.some.inj h
      exact .inr ⟨hdrawn, rfl, .inl rfl⟩
  | register r =>
    simp only [apply, Store.register] at h
    split at h
    · obtain rfl := Option.some.inj h
      exact .inl ⟨rfl, rfl⟩
    · cases h
  | addPasskey passkey =>
    simp only [apply] at h
    split at h
    · obtain rfl := Option.some.inj h
      exact .inl ⟨rfl, rfl⟩
    · cases h
  | signIn credentialId newCounter session =>
    simp only [apply] at h
    split at h
    · obtain rfl := Option.some.inj h
      exact .inl ⟨rfl, rfl⟩
    · cases h
  | _ =>
    obtain rfl := Option.some.inj h
    exact .inl ⟨rfl, rfl⟩

end Cases

/-! ## The invariant -/

structure Store.Sound (s : Store) : Prop where
  keys : s.Keys
  verifications : ∀ v ∈ s.verifications, v.id ∈ s.drawn
  challenges : ∀ k ∈ s.challenges, k.id ∈ s.drawn
  drawn : ∀ r ∈ s.reservations, r.verificationId ∈ s.drawn
  /-- A row that is reserved was reserved for its address. -/
  made : ∀ v ∈ s.verifications, ∀ id, v.reservationId = some id → ⟨v.id, id, v.emailHash⟩ ∈ s.reservations
  /-- A row that is reserved was verified. -/
  verified : ∀ v ∈ s.verifications, v.reservationId ≠ none → v.verifiedAt ≠ none
  /-- A row that is not reserved never was. -/
  free : ∀ v ∈ s.verifications, v.reservedAt = none → ∀ r ∈ s.reservations, r.verificationId ≠ v.id
  once : Table.Keyed Reservation.verificationId s.reservations

theorem Store.Sound.empty : Store.empty.Sound where
  keys := by decide +kernel
  verifications := fun _ h => absurd h List.not_mem_nil
  challenges := fun _ h => absurd h List.not_mem_nil
  drawn := fun _ h => absurd h List.not_mem_nil
  made := fun _ h => absurd h List.not_mem_nil
  verified := fun _ h => absurd h List.not_mem_nil
  free := fun _ h => absurd h List.not_mem_nil
  once := List.nodup_nil

theorem Verification.isVerified_iff {e : VerifiedEmail} {now : Nat} {v : Verification} : v.isVerified e now = true ↔
    v.id = e.id ∧ v.emailHash = e.emailHash ∧ v.verificationTokenHash = some e.tokenHash ∧ v.verifiedAt.isSome = true ∧
      v.tokenExpiresAt.any (fun t => decide (now < t)) = true ∧ v.reservedAt = none ∧ v.consumedAt = none := by
  simp only [isVerified, Bool.and_eq_true, decide_eq_true_eq, and_assoc, Option.isNone_iff_eq_none]

/-- At most one row is of the token. -/
theorem Store.Keys.verified_le_one {s : Store} (h : s.Keys) (e : VerifiedEmail) (now : Nat) :
    (s.verifications.filter (Verification.isVerified e now)).length ≤ 1 := by
  have hnodup : ((s.verifications.filter (Verification.isVerified e now)).map Verification.id).Nodup :=
    h.verifications.sublist (List.filter_sublist.map _)
  match hfiltered : s.verifications.filter (Verification.isVerified e now) with
  | [] => exact Nat.zero_le 1
  | [_] => exact Nat.le_refl 1
  | a :: b :: rest =>
    have hid : ∀ v ∈ a :: b :: rest, v.id = e.id := fun v hv =>
      (Verification.isVerified_iff.1 (List.mem_filter.1 (hfiltered ▸ hv)).2).1
    rw [hfiltered] at hnodup
    have hne : a.id ≠ b.id := by
      rw [List.map_cons, List.nodup_cons] at hnodup
      exact fun heq => hnodup.1 (heq ▸ List.mem_map_of_mem List.mem_cons_self)
    exact absurd ((hid a (by simp)).trans (hid b (by simp)).symm) hne

section Step

variable {env : Env} {x : Outside} {c : Command} {s s' : Store} (happly : c.apply env x s = some s')
include happly

theorem Command.drawn_grows : s.drawn ⊆ s'.drawn := by
  obtain ⟨hsame, -⟩ | ⟨-, hnew, -⟩ := c.drawn_cases happly
  · rw [hsame]
    exact List.Subset.refl _
  · rw [hnew]
    exact List.subset_cons_self _ _

theorem Command.reservations_grow : s.reservations ⊆ s'.reservations := by
  obtain ⟨-, hsame⟩ | ⟨-, -, hsame | ⟨e, userId, profile, consent, challenge, now, -, hnew⟩⟩ := c.drawn_cases happly
  · rw [hsame]
    exact List.Subset.refl _
  · rw [hsame]
    exact List.Subset.refl _
  · rw [hnew]
    exact List.subset_append_left _ _

/-- The reservations that a command makes are of rows that were free, by an identifier that it drew. -/
theorem Command.new_reservation {r : Reservation} (hr : r ∈ s'.reservations) : r ∈ s.reservations ∨
    ∃ e userId profile consent challenge now, c = .reserve e userId profile consent challenge now ∧
      ∃ v ∈ s.verifications, v.isVerified e now = true ∧ r = ⟨v.id, x.uuid.1, v.emailHash⟩ := by
  obtain ⟨-, hsame⟩ | ⟨-, -, hsame | ⟨e, userId, profile, consent, challenge, now, hc, hnew⟩⟩ := c.drawn_cases happly
  · exact .inl (hsame ▸ hr)
  · exact .inl (hsame ▸ hr)
  · rw [hnew] at hr
    rcases List.mem_append.1 hr with hr | hr
    · exact .inl hr
    · obtain ⟨v, hv, rfl⟩ := List.mem_map.1 hr
      obtain ⟨hmem, hverified⟩ := List.mem_filter.1 hv
      exact .inr ⟨e, userId, profile, consent, challenge, now, hc, v, hmem, hverified, rfl⟩

/-- **Every command keeps the invariant.** -/
theorem Store.Sound.step (h : s.Sound) (hkeys : s'.Keys) : s'.Sound where
  keys := hkeys
  verifications := by
    intro v' hv'
    obtain ⟨v, hv, hstep⟩ | hnew := c.verifications_cases happly hv'
    · rw [hstep.id.1]
      exact c.drawn_grows happly (h.verifications v hv)
    · exact hnew.2.1
  challenges := by
    intro k' hk'
    obtain ⟨k, hk, hid⟩ | ⟨-, hdrawn⟩ := c.challenges_cases happly hk'
    · rw [hid]
      exact c.drawn_grows happly (h.challenges k hk)
    · exact hdrawn
  drawn := by
    intro r hr
    obtain hold | ⟨e, userId, profile, consent, challenge, now, -, v, hv, -, rfl⟩ := c.new_reservation happly hr
    · exact c.drawn_grows happly (h.drawn r hold)
    · exact c.drawn_grows happly (h.verifications v hv)
  made := by
    intro v' hv' id hid
    obtain ⟨v, hv, hstep⟩ | hnew := c.verifications_cases happly hv'
    · cases hstep with
      | same => exact c.reservations_grow happly (h.made _ hv id hid)
      | consumed now => exact c.reservations_grow happly (h.made v hv id hid)
      | verified codeHash tokenHash now hc hcompared => exact c.reservations_grow happly (h.made v hv id hid)
      | tried now hc hopen => exact c.reservations_grow happly (h.made v hv id hid)
      | reserved e userId profile consent challenge now hc hverified =>
        obtain rfl := Option.some.inj hid
        subst hc
        simp only [Command.apply] at happly
        split at happly
        · cases happly
        · obtain rfl := Option.some.inj happly
          exact List.mem_append_right _ (List.mem_map.2 ⟨v, List.mem_filter.2 ⟨hv, hverified⟩, rfl⟩)
    · rw [hnew.2.2.2.2.2] at hid
      cases hid
  verified := by
    intro v' hv' hreserved
    obtain ⟨v, hv, hstep⟩ | hnew := c.verifications_cases happly hv'
    · cases hstep with
      | same => exact h.verified _ hv hreserved
      | consumed now => exact h.verified v hv hreserved
      | verified codeHash tokenHash now hc hcompared => nofun
      | tried now hc hopen => exact h.verified v hv hreserved
      | reserved e userId profile consent challenge now hc hverified =>
        intro hnone
        have hsome := (Verification.isVerified_iff.1 hverified).2.2.2.1
        rw [show v.verifiedAt = none from hnone] at hsome
        cases hsome
    · exact absurd hnew.2.2.2.2.2 hreserved
  free := by
    intro v' hv' hfree r hr
    obtain hold | ⟨e, userId, profile, consent, challenge, now, rfl, v₂, hv₂, hverified, rfl⟩ :=
      c.new_reservation happly hr
    · obtain ⟨v, hv, hstep⟩ | hnew := c.verifications_cases happly hv'
      · cases hstep with
        | same => exact h.free _ hv hfree r hold
        | consumed now => exact h.free v hv hfree r hold
        | verified codeHash tokenHash now hc hcompared => exact h.free v hv hfree r hold
        | tried now hc hopen => exact h.free v hv hfree r hold
        | reserved e userId profile consent challenge now hc hverified => cases hfree
      · exact fun heq => hnew.1 (heq ▸ h.drawn r hold)
    · -- the row that was reserved just now is no longer free
      intro heq
      simp only [Command.apply] at happly
      split at happly
      · cases happly
      · obtain rfl := Option.some.inj happly
        obtain ⟨v, hv, rfl⟩ := Table.mem_update.1 hv'
        have hid : v.id = v₂.id := by
          refine Eq.trans ?_ heq.symm
          show v.id = (if v.isVerified e now = true then reserved x.uuid.1 now v else v).id
          split <;> rfl
        obtain rfl := h.keys.verifications.eq_of_key hv hv₂ hid
        rw [if_pos hverified] at hfree
        cases hfree
  once := by
    obtain ⟨-, hsame⟩ | ⟨-, -, hsame | ⟨e, userId, profile, consent, challenge, now, hc, hnew⟩⟩ := c.drawn_cases happly
    · exact hsame ▸ h.once
    · exact hsame ▸ h.once
    · rw [hnew]
      have hfew := h.keys.verified_le_one e now
      cases hfiltered : s.verifications.filter (Verification.isVerified e now) with
      | nil => rw [List.map_nil, List.append_nil]; exact h.once
      | cons v rest =>
        rw [hfiltered] at hfew
        obtain rfl : rest = [] := List.eq_nil_of_length_eq_zero (by simpa using hfew)
        obtain ⟨hmem, hverified⟩ := List.mem_filter.1 (hfiltered ▸ List.mem_cons_self)
        exact h.once.append (h.free v hmem (Verification.isVerified_iff.1 hverified).2.2.2.2.2.1)

end Step

/-! ## The discipline -/

/-- A registration is committed only where its verification was reserved for its challenge and its address. -/
def Command.Fact (c : Command) (s : Store) : Prop :=
  match c with
  | .register r => ⟨r.verificationId, r.challengeId, r.verifiedEmailHash⟩ ∈ s.reservations
  | _ => True

theorem Store.Sound.exec {s : Store} (h : s.Sound) (env : Env) (x : Outside) (c : Command) : (c.exec env x s).Sound := by
  obtain ⟨-, hsame⟩ | ⟨s', -, happly, hkeys, hexec⟩ := c.exec_cases env x s
  · rw [hsame]
    exact h
  · rw [hexec]
    exact h.step happly hkeys

def accounts (env : Env) : Discipline Outside Command Store where
  exec := Command.exec env
  Fact := Command.Fact
  Inv := Store.Sound
  keeps := fun x c _ h _ => h.exec env x c

/-- A reservation was made, whatever became of it. -/
theorem stable_reserved (env : Env) (r : Reservation) : (accounts env).Stable (fun s => r ∈ s.reservations) := by
  intro x c s _ _ hr
  show r ∈ (c.exec env x s).reservations
  obtain ⟨-, hsame⟩ | ⟨s', -, happly, -, hexec⟩ := c.exec_cases env x s
  · rw [hsame]
    exact hr
  · rw [hexec]
    exact c.reservations_grow happly hr

end Accounts
end Adg
