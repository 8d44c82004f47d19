import Mathlib.Data.UInt
import Wakaama.Core.Proofs.RegistrationOrder

/-!
# When a failed registration is tried again

The delay doubles with each attempt as long as the factor is an `int` and the time does not wrap;
behind that nothing is saturated. The counters of attempts and sequences stay below their limits.
-/

namespace Wakaama

/-! ## The time of the next attempt -/

theorem toInt64_ofInt (value : Int) :
    (UInt64.ofInt value).toInt64.toInt = value.bmod (2 ^ 64) := by
  have hcast : (((value % 2 ^ 64).toNat : Nat) : Int) = value % 2 ^ 64 :=
    Int.toNat_of_nonneg (Int.emod_nonneg _ (by decide))
  calc (UInt64.ofInt value).toInt64.toInt
    _ = (Int64.ofNat (value % 2 ^ 64).toNat).toInt := rfl
    _ = (value % 2 ^ 64).bmod (2 ^ 64) := by
      rw [Int64.toInt_ofNat', hcast, show Int64.size = 2 ^ 64 from rfl]
    _ = value.bmod (2 ^ 64) := Int.emod_bmod value (2 ^ 64)

theorem ofInt_toNat (value : UInt64) : UInt64.ofInt (value.toNat : Int) = value := by
  apply UInt64.toNat_inj.mp
  have hlt := value.toNat_lt
  show (UInt64.ofNat (((value.toNat : Int) % 2 ^ 64).toNat)).toNat = value.toNat
  rw [UInt64.toNat_ofNat']
  omega

theorem addDelay_bmod (now : Int) (delay : UInt64) :
    addDelay now delay = (now + delay.toNat).bmod (2 ^ 64) := by
  unfold addDelay
  rw [← toInt64_ofInt, UInt64.ofInt_add, ofInt_toNat]

theorem attemptFactor_table :
    ∀ count : Fin 31, attemptFactor (UInt8.ofNat (count + 1)) = UInt64.ofNat (2 ^ count.val) := by
  decide +kernel

variable {attempt : UInt8} {index : Nat} {targetP server server' : RegistrationServer}
  {context : RegistrationContext} {delay : UInt64}

theorem attemptFactor_pow (hlow : 1 ≤ attempt.toNat) (hhigh : attempt.toNat ≤ 31) :
    (attemptFactor attempt).toNat = 2 ^ (attempt.toNat - 1) := by
  have hcount : attempt = UInt8.ofNat (attempt.toNat - 1 + 1) := by
    rw [Nat.sub_add_cancel hlow, UInt8.ofNat_toNat]
  have htable := attemptFactor_table ⟨attempt.toNat - 1, by omega⟩
  rw [← hcount] at htable
  rw [htable, UInt64.toNat_ofNat']
  apply Nat.mod_eq_of_lt
  exact Nat.lt_of_le_of_lt (Nat.pow_le_pow_right (by decide) (show attempt.toNat - 1 ≤ 30 by omega))
    (by decide)

theorem attemptShift_isSome_iff (attempt : UInt8) :
    (attemptShift attempt).isSome ↔ 1 ≤ attempt.toNat ∧ attempt.toNat ≤ 31 := by
  unfold attemptShift shiftLeft
  constructor
  · intro hsome
    split at hsome
    · rename_i hdefined
      obtain ⟨hlow, hwidth, hfits⟩ := hdefined
      refine ⟨by omega, Decidable.byContradiction fun hover => ?_⟩
      have hcount : ((attempt.toNat : Int) - 1).toNat = 31 := by omega
      rw [hcount] at hfits
      exact absurd hfits (by decide)
    · cases hsome
  · intro ⟨hlow, hhigh⟩
    rw [if_pos, Option.isSome_some]
    refine ⟨by omega, by omega, ?_⟩
    have hcount : ((attempt.toNat : Int) - 1).toNat ≤ 30 := by omega
    have hpow : 2 ^ ((attempt.toNat : Int) - 1).toNat ≤ 2 ^ 30 :=
      Nat.pow_le_pow_right (by decide) hcount
    have hcast : (2 : Int) ^ ((attempt.toNat : Int) - 1).toNat =
        (2 ^ ((attempt.toNat : Int) - 1).toNat : Nat) := by
      rw [Int.natCast_pow]
      rfl
    omega

/-- The time that the back-off asks for: now and the delay, doubled with each further attempt. -/
def backOffTime (now : Int64) (delay : UInt64) (attempt : UInt8) : Int :=
  now.toInt + (delay.toNat * 2 ^ (attempt.toNat - 1) : Nat)

/-- The largest `time_t`. -/
def timeMax : Int := 2 ^ 63 - 1

/-- When the server at `index` is to be registered again behind a failed attempt. -/
def retryTime (now : Int64) (index : Nat) (targetP : RegistrationServer)
    (context : RegistrationContext) : Option Int :=
  (prvHandleRegistrationAttemptFailure now.toInt index targetP context).serverList[index]?.map
    fun server => server.registration

/-- A server whose attempt has failed and that has another one. -/
structure HasAttempt (index : Nat) (targetP : RegistrationServer) (context : RegistrationContext)
    (delay : UInt64) : Prop where
  target : index < context.serverList.length
  limit : ∃ serverObjP limit, context.serverObj = some serverObjP ∧
    prvGetRegistrationAttemptLimit serverObjP targetP = .ok (limit, delay) ∧
    targetP.attempt < limit

theorem HasAttempt.retryTime (h : HasAttempt index targetP context delay) (now : Int64) :
    Wakaama.retryTime now index targetP context =
      some (addDelay now.toInt (delay * attemptFactor targetP.attempt)) := by
  obtain ⟨serverObjP, limit, hobj, hlimit, hlt⟩ := h.limit
  have hserver := List.getElem?_eq_getElem h.target
  unfold Wakaama.retryTime prvHandleRegistrationAttemptFailure
  rw [hobj]
  dsimp only
  rw [hlimit]
  dsimp only
  rw [if_neg (UInt8.not_le.mpr hlt), modifyServer_eq _ hserver]
  dsimp only
  rw [set_getElem? hserver, if_pos rfl, Option.map_some]

theorem HasAttempt.earlier (h : HasAttempt index targetP context delay)
    (hle : attempt ≤ targetP.attempt) :
    HasAttempt index { targetP with attempt } context delay := by
  obtain ⟨serverObjP, limit, hobj, hlimit, hlt⟩ := h.limit
  exact ⟨h.target, serverObjP, limit, hobj, hlimit, UInt8.lt_of_le_of_lt hle hlt⟩

/-- The retry is scheduled as the back-off asks for, or at the largest time where that is too
small: the shift is defined, and the time is neither before now nor before that of an earlier
attempt. -/
structure BacksOff (now : Int64) (delay : UInt64) (index : Nat) (targetP : RegistrationServer)
    (context : RegistrationContext) : Prop where
  defined : (attemptShift targetP.attempt).isSome
  time : retryTime now index targetP context =
    some (min (backOffTime now delay targetP.attempt) timeMax)
  notEarlier : ∀ time ∈ retryTime now index targetP context, now.toInt ≤ time
  growing : ∀ attempt : UInt8, 1 ≤ attempt → attempt ≤ targetP.attempt →
    ∀ before ∈ retryTime now index { targetP with attempt } context,
      ∀ time ∈ retryTime now index targetP context, before ≤ time

/-- The attempts whose shift is defined, at a time that fits or wraps onto the largest one. -/
def BackOffFits (now : Int64) (delay : UInt64) (attempt : UInt8) : Prop :=
  1 ≤ attempt ∧ attempt ≤ 31 ∧
    (backOffTime now delay attempt ≤ timeMax ∨ backOffTime now delay attempt % 2 ^ 64 = timeMax)

theorem addDelay_backOff (now : Int64) (delay : UInt64) (hlow : 1 ≤ attempt.toNat)
    (hhigh : attempt.toNat ≤ 31) :
    addDelay now.toInt (delay * attemptFactor attempt) =
      (backOffTime now delay attempt).bmod (2 ^ 64) := by
  rw [addDelay_bmod, UInt64.toNat_mul, attemptFactor_pow hlow hhigh, backOffTime, Int.natCast_emod]
  exact Int.add_emod_bmod _ (2 ^ 64)

theorem backOffTime_ge (now : Int64) (delay : UInt64) (attempt : UInt8) :
    now.toInt ≤ backOffTime now delay attempt := by
  unfold backOffTime
  omega

theorem backOffTime_mono (now : Int64) (delay : UInt64) {later : UInt8} (h : attempt ≤ later) :
    backOffTime now delay attempt ≤ backOffTime now delay later := by
  have hle : attempt.toNat ≤ later.toNat := UInt8.le_iff_toNat_le.mp h
  have hpow : 2 ^ (attempt.toNat - 1) ≤ 2 ^ (later.toNat - 1) :=
    Nat.pow_le_pow_right (by decide) (by omega)
  have hmul := Nat.mul_le_mul_left delay.toNat hpow
  unfold backOffTime
  omega

theorem bmod_eq_min_iff {time : Int} (hlow : -2 ^ 63 ≤ time) :
    time.bmod (2 ^ 64) = min time timeMax ↔ time ≤ timeMax ∨ time % 2 ^ 64 = timeMax := by
  unfold timeMax
  rw [Int.bmod_def]
  omega

theorem bmod_le_timeMax (time : Int) : time.bmod (2 ^ 64) ≤ timeMax := by
  have hlt := Int.bmod_lt (show 0 < 2 ^ 64 by decide) (x := time)
  unfold timeMax
  omega

theorem backsOff_iff {now : Int64} (h : HasAttempt index targetP context delay) :
    BacksOff now delay index targetP context ↔ BackOffFits now delay targetP.attempt := by
  have hone : (1 : UInt8) ≤ targetP.attempt ↔ 1 ≤ targetP.attempt.toNat := UInt8.le_iff_toNat_le
  have hmost : targetP.attempt ≤ (31 : UInt8) ↔ targetP.attempt.toNat ≤ 31 :=
    UInt8.le_iff_toNat_le
  have hnow := backOffTime_ge now delay targetP.attempt
  have hnowLow := now.le_toInt
  have hnowHigh := now.toInt_lt
  constructor
  · intro hback
    obtain ⟨hlow, hhigh⟩ := (attemptShift_isSome_iff _).mp hback.defined
    have htime := hback.time
    rw [h.retryTime, addDelay_backOff now delay hlow hhigh] at htime
    refine ⟨hone.mpr hlow, hmost.mpr hhigh, ?_⟩
    exact (bmod_eq_min_iff (by omega)).mp (Option.some.inj htime)
  · intro ⟨hlow, hhigh, hfits⟩
    have hlow' := hone.mp hlow
    have hhigh' := hmost.mp hhigh
    have htime : retryTime now index targetP context =
        some (min (backOffTime now delay targetP.attempt) timeMax) := by
      rw [h.retryTime, addDelay_backOff now delay hlow' hhigh',
        (bmod_eq_min_iff (by omega)).mpr hfits]
    refine ⟨(attemptShift_isSome_iff _).mpr ⟨hlow', hhigh'⟩, htime, ?_, ?_⟩
    · intro time hmem
      rw [htime, Option.mem_some_iff] at hmem
      unfold timeMax at hmem
      omega
    · intro attempt hattempt hle before hbefore time hmem
      rw [htime, Option.mem_some_iff] at hmem
      rw [(h.earlier hle).retryTime, Option.mem_some_iff] at hbefore
      have hattemptLow : 1 ≤ attempt.toNat := UInt8.le_iff_toNat_le.mp hattempt
      have hattemptHigh : attempt.toNat ≤ 31 :=
        Nat.le_trans (UInt8.le_iff_toNat_le.mp hle) hhigh'
      rw [addDelay_backOff now delay hattemptLow hattemptHigh] at hbefore
      have hmost := bmod_le_timeMax (backOffTime now delay attempt)
      have hmono := backOffTime_mono now delay hle
      rcases Int.le_total (backOffTime now delay targetP.attempt) timeMax with hsmall | hlarge
      · -- An earlier attempt fits where this one does.
        have hnow' := backOffTime_ge now delay attempt
        have hearlier := (bmod_eq_min_iff (show -2 ^ 63 ≤ backOffTime now delay attempt by omega)).mpr
          (.inl (Int.le_trans hmono hsmall))
        omega
      · omega

/-! ## The counters -/

/-- The counters of a server that waits for a reply or for its next attempt, one below their
limits. -/
structure CountersFit (server : RegistrationServer) : Prop where
  pending : server.status = .regPending → server.attempt ≠ 0 ∧ server.attempt.toNat ≤ 254 ∧
    server.sequence.toNat ≤ 254
  holdOff : server.status = .regHoldOff → server.attempt.toNat ≤ 253 ∧
    server.sequence.toNat ≤ 254 ∧ (server.attempt = 0 → server.sequence.toNat ≤ 253)

theorem CountersFit.off (hpending : server.status ≠ .regPending)
    (hholdOff : server.status ≠ .regHoldOff) : CountersFit server :=
  ⟨fun h => absurd h hpending, fun h => absurd h hholdOff⟩

theorem CountersFit.zero (hattempt : server.attempt = 0) (hsequence : server.sequence = 0)
    (hpending : server.status ≠ .regPending) : CountersFit server := by
  constructor
  · exact fun h => absurd h hpending
  · intro _
    rw [hattempt, hsequence]
    decide

theorem CountersFit.congr (h : CountersFit server) (hstatus : server'.status = server.status)
    (hattempt : server'.attempt = server.attempt) (hsequence : server'.sequence = server.sequence) :
    CountersFit server' := by
  constructor
  · intro hpending
    rw [hattempt, hsequence]
    exact h.pending (hstatus ▸ hpending)
  · intro hholdOff
    rw [hattempt, hsequence]
    exact h.holdOff (hstatus ▸ hholdOff)

theorem CountersFit.quiet (h : CountersFit server) (hquiet : QuietChange server server') :
    CountersFit server' := by
  cases hquiet with
  | same status attempt sequence => exact h.congr status attempt sequence
  | sent before after attempt sequence =>
    obtain ⟨hattempt, hsequence, hfirst⟩ := h.holdOff before
    have hnext : (server.attempt + 1).toNat = server.attempt.toNat + 1 := by
      rw [UInt8.toNat_add, UInt8.toNat_one]
      omega
    constructor
    · intro _
      rw [attempt, sequence]
      refine ⟨?_, by omega, ?_⟩
      · intro hzero
        have hzero' := congrArg UInt8.toNat hzero
        rw [hnext] at hzero'
        exact absurd hzero' (Nat.succ_ne_zero _)
      · split
        · rename_i hzero
          rw [UInt8.toNat_add, UInt8.toNat_one]
          have := hfirst hzero
          omega
        · exact hsequence
    · intro hholdOff
      rw [after] at hholdOff
      nomatch hholdOff
  | settled before after => exact .off after.2.2 after.2.1

theorem CountersFit.step (h : CountersFit server) (currentTime : Int) (env : ServerEnv) :
    server.attempt ≤ (registrationStepCounted currentTime env server).attempt ∧
      server.sequence ≤ (registrationStepCounted currentTime env server).sequence := by
  unfold registrationStepCounted
  split
  · rename_i hholdOff
    obtain ⟨hattempt, hsequence, hfirst⟩ := h.holdOff hholdOff
    have hone : (1 : UInt8).toNat = 1 := rfl
    split
    · unfold prvRegisterCounted
      dsimp only
      split
      · constructor
        · rw [UInt8.le_iff_toNat_le, UInt8.toNat_add]
          omega
        · split
          · rename_i hzero
            have := hfirst hzero
            rw [UInt8.le_iff_toNat_le, UInt8.toNat_add]
            omega
          · exact UInt8.le_refl _
      · exact ⟨UInt8.le_refl _, UInt8.le_refl _⟩
    · exact ⟨UInt8.le_refl _, UInt8.le_refl _⟩
  · exact ⟨UInt8.le_refl _, UInt8.le_refl _⟩

/-- What a start makes of a server: the same, or its counters are set to zero. -/
def StartChange (restartFailed : Bool) (server server' : RegistrationServer) : Prop :=
  server' = server ∨ startable restartFailed server = true ∧ server'.attempt = 0 ∧
    server'.sequence = 0 ∧ server'.status ≠ .regPending

theorem startable_notPending {restartFailed : Bool} (h : startable restartFailed server = true) :
    server.status ≠ .regPending := by
  intro hpending
  simp [startable, hpending] at h

theorem StartChange.fits {restartFailed : Bool} (h : StartChange restartFailed server server')
    (hfits : CountersFit server) : CountersFit server' := by
  rcases h with rfl | ⟨-, hattempt, hsequence, hstatus⟩
  · exact hfits
  · exact .zero hattempt hsequence hstatus

theorem prvStartRegistration_ok {serverObjP : ServerReader} {now : Int}
    {started : RegistrationServer} (h : prvStartRegistration serverObjP now targetP = .ok started) :
    started.attempt = targetP.attempt ∧ started.sequence = targetP.sequence ∧
      started.status = .regHoldOff := by
  obtain ⟨delay, -, h⟩ := bind_eq_ok.mp h
  rw [← Except.ok.inj h]
  exact ⟨rfl, rfl, rfl⟩

theorem registrationStartLoop_changes (serverObjP : ServerReader) (now : Int)
    (restartFailed : Bool) (index : Nat) (servers : List RegistrationServer)
    (first : Option (UInt64 × Nat)) :
    List.Forall₂ (StartChange restartFailed) servers
        (registrationStartLoop serverObjP now restartFailed index servers first).1 ∧
      ∀ least, (registrationStartLoop serverObjP now restartFailed index servers first).2.1 =
        some least → first = some least ∨ ∃ k server server', least.2 = index + k ∧
          servers[k]? = some server ∧ startable restartFailed server = true ∧
          (registrationStartLoop serverObjP now restartFailed index servers first).1[k]? =
            some server' ∧ server'.attempt = 0 ∧ server'.sequence = 0 ∧
          server'.status ≠ .regPending := by
  induction servers generalizing index first with
  | nil => exact ⟨.nil, fun least h => .inl h⟩
  | cons targetP next ih =>
    have hsame : List.Forall₂ (StartChange restartFailed) next next := by
      rw [List.forall₂_same]
      exact fun server _ => .inl rfl
    rw [registrationStartLoop]
    by_cases hstartable : startable restartFailed targetP = true
    · rw [if_pos hstartable]
      have hreset : StartChange restartFailed targetP { targetP with attempt := 0, sequence := 0 } :=
        .inr ⟨hstartable, rfl, rfl, startable_notPending hstartable⟩
      dsimp only
      cases horder : prvGetRegistrationOrder serverObjP
          { targetP with attempt := 0, sequence := 0 } with
      | error result => exact ⟨.cons hreset hsame, fun least h => .inl h⟩
      | ok order =>
        cases order with
        | none =>
          dsimp only
          cases hstart : prvStartRegistration serverObjP now
              { targetP with attempt := 0, sequence := 0 } with
          | error result => exact ⟨.cons hreset hsame, fun least h => .inl h⟩
          | ok started =>
            obtain ⟨hattempt, hsequence, hstatus⟩ := prvStartRegistration_ok hstart
            obtain ⟨hnext, hfirst⟩ := ih (index + 1) first
            refine ⟨.cons (.inr ⟨hstartable, hattempt, hsequence, by rw [hstatus]; intro h; cases h⟩) hnext, ?_⟩
            intro least hleast
            obtain hwas | ⟨k, server, server', hk, hserver⟩ := hfirst least hleast
            · exact .inl hwas
            · exact .inr ⟨k + 1, server, server', by omega, hserver⟩
        | some order =>
          dsimp only
          obtain ⟨hnext, hfirst⟩ := ih (index + 1)
            (if first.all fun first => order < first.1 then some (order, index) else first)
          refine ⟨.cons hreset hnext, ?_⟩
          intro least hleast
          obtain hwas | ⟨k, server, server', hk, hserver⟩ := hfirst least hleast
          · split at hwas
            · obtain rfl := Option.some.inj hwas
              exact .inr ⟨0, targetP, _, rfl, rfl, hstartable, rfl, rfl, rfl,
                startable_notPending hstartable⟩
            · exact .inl hwas
          · exact .inr ⟨k + 1, server, server', by omega, hserver⟩
    · rw [if_neg hstartable]
      obtain ⟨hnext, hfirst⟩ := ih (index + 1) first
      refine ⟨.cons (.inl rfl) hnext, ?_⟩
      intro least hleast
      obtain hwas | ⟨k, server, server', hk, hserver⟩ := hfirst least hleast
      · exact .inl hwas
      · exact .inr ⟨k + 1, server, server', by omega, hserver⟩

theorem forall₂_modify {α β : Type} {R : α → β → Prop} {l : List α} {l' : List β}
    (h : List.Forall₂ R l l') {change : β → β}
    (hchange : ∀ a b, l[index]? = some a → l'[index]? = some b → R a (change b)) :
    List.Forall₂ R l (l'.modify index change) := by
  induction h generalizing index with
  | nil =>
    rw [List.modify_nil]
    exact .nil
  | @cons a b l l' hab hrest ih =>
    cases index with
    | zero => exact .cons (hchange a b rfl rfl) hrest
    | succ index => exact .cons hab (ih hchange)

theorem registrationStart_changes (now : Int) (restartFailed : Bool)
    (context : RegistrationContext) :
    (registrationStart now restartFailed context).serverObj = context.serverObj ∧
      List.Forall₂ (StartChange restartFailed) context.serverList
        (registrationStart now restartFailed context).serverList := by
  unfold registrationStart
  cases hobj : context.serverObj with
  | none =>
    refine ⟨hobj, ?_⟩
    rw [List.forall₂_same]
    exact fun server _ => .inl rfl
  | some serverObjP =>
    obtain ⟨hlist, hfirst⟩ :=
      registrationStartLoop_changes serverObjP now restartFailed 0 context.serverList none
    dsimp only
    generalize hloop : registrationStartLoop serverObjP now restartFailed 0 context.serverList none =
      out at hlist hfirst
    obtain ⟨serverList, firstOrdered, result⟩ := out
    cases firstOrdered with
    | none => exact ⟨rfl, hlist⟩
    | some least =>
      refine ⟨rfl, forall₂_modify hlist ?_⟩
      obtain hwas | ⟨k, server, server', hk, hserver, hstartable, hserver', hattempt, hsequence,
        hpending⟩ := hfirst least rfl
      · cases hwas
      intro other other' hother hother'
      rw [hk, Nat.zero_add] at hother hother'
      obtain rfl := Option.some.inj (hserver.symm.trans hother)
      obtain rfl := Option.some.inj (hserver'.symm.trans hother')
      refine .inr ⟨hstartable, ?_⟩
      cases hstart : prvStartRegistration serverObjP now server' with
      | error code => exact ⟨hattempt, hsequence, hpending⟩
      | ok started =>
        obtain ⟨hattempt', hsequence', hstatus⟩ := prvStartRegistration_ok hstart
        show started.attempt = 0 ∧ started.sequence = 0 ∧ started.status ≠ .regPending
        rw [hattempt', hsequence', hstatus]
        exact ⟨hattempt, hsequence, nofun⟩

def AllFit (context : RegistrationContext) : Prop :=
  ∀ server ∈ context.serverList, CountersFit server

theorem AllFit.modifyServer (h : AllFit context) {change : RegistrationServer → RegistrationServer}
    (hchange : ∀ server, context.serverList[index]? = some server → CountersFit (change server)) :
    AllFit (context.modifyServer index change) := by
  intro server hmem
  obtain ⟨k, hk⟩ := List.getElem?_of_mem hmem
  unfold RegistrationContext.modifyServer at hk
  dsimp only at hk
  rw [List.getElem?_modify, Option.map_eq_map, Option.map_eq_some_iff] at hk
  obtain ⟨before, hbefore, rfl⟩ := hk
  by_cases hindex : index = k
  · subst hindex
    rw [if_pos rfl]
    exact hchange before hbefore
  · rw [if_neg hindex]
    exact h before (List.mem_of_getElem? hbefore)

theorem AllFit.start (h : AllFit context) (now : Int) (restartFailed : Bool) :
    AllFit (registrationStart now restartFailed context) := by
  obtain ⟨-, hlist⟩ := registrationStart_changes now restartFailed context
  intro server' hmem
  obtain ⟨k, hk⟩ := List.getElem?_of_mem hmem
  obtain ⟨hlt, hserver'⟩ := List.getElem?_eq_some_iff.mp hk
  have hlt' : k < context.serverList.length := by
    rw [hlist.length_eq]
    exact hlt
  have hchange := hlist.get hlt' hlt
  rw [List.get_eq_getElem, List.get_eq_getElem, hserver'] at hchange
  exact hchange.fits (h _ (List.getElem_mem hlt'))

theorem registrationStart_pending (h : context.serverList[index]? = some server)
    (hpending : server.status = .regPending) (now : Int) (restartFailed : Bool) :
    (registrationStart now restartFailed context).serverList[index]? = some server := by
  obtain ⟨-, hlist⟩ := registrationStart_changes now restartFailed context
  obtain ⟨hlt, rfl⟩ := List.getElem?_eq_some_iff.mp h
  have hlt' : index < (registrationStart now restartFailed context).serverList.length := by
    rw [← hlist.length_eq]
    exact hlt
  have hchange := hlist.get hlt hlt'
  rw [List.get_eq_getElem, List.get_eq_getElem] at hchange
  rcases hchange with hsame | ⟨hstartable, -⟩
  · rw [List.getElem?_eq_getElem hlt', hsame]
  · exact absurd hpending (startable_notPending hstartable)

theorem CountersFit.failed (server : RegistrationServer) :
    CountersFit { server with status := .regFailed } :=
  .off nofun nofun

theorem CountersFit.failOrdered (h : CountersFit server) (serverObjP : ServerReader) :
    CountersFit (failOrdered serverObjP server) := by
  unfold Wakaama.failOrdered
  split
  · split
    · exact .failed server
    · exact h
  · exact h

theorem AllFit.nextSequence (h : AllFit context)
    (hserver : context.serverList[index]? = some server)
    (hsequence : targetP.sequence = server.sequence) (serverObjP : ServerReader) (now : Int)
    (orderedAndBlocking : Bool) :
    AllFit (nextSequence serverObjP now orderedAndBlocking index targetP context) := by
  have hfailed : AllFit
      (context.modifyServer index fun target => { target with status := .regFailed }) :=
    h.modifyServer fun target _ => .failed target
  unfold Wakaama.nextSequence
  cases hlimit : prvGetRegistrationSequenceLimit serverObjP targetP with
  | error code => exact hfailed
  | ok limits =>
    dsimp only
    split
    · split
      · split
        · intro target hmem
          obtain ⟨before, hbefore, rfl⟩ := List.mem_map.mp hmem
          exact (hfailed before hbefore).failOrdered serverObjP
        · exact hfailed
      · exact hfailed
    · rename_i hlow
      refine h.modifyServer fun target htarget => ?_
      obtain rfl := Option.some.inj (hserver.symm.trans htarget)
      have hlimit := sequenceLimit_le hlimit
      rw [UInt8.le_iff_toNat_le] at hlimit hlow
      have hmost : (254 : UInt8).toNat = 254 := rfl
      rw [hsequence] at hlow
      constructor
      · exact nofun
      · intro _
        have hzero : (0 : UInt8).toNat ≤ 253 := by decide
        exact ⟨hzero, by dsimp only; omega, fun _ => by dsimp only; omega⟩

theorem AllFit.sequenceFailure (h : AllFit context)
    (hserver : context.serverList[index]? = some server) (hpending : server.status = .regPending)
    (hsequence : targetP.sequence = server.sequence) (serverObjP : ServerReader) (now : Int) :
    AllFit (prvHandleRegistrationSequenceFailure serverObjP now index targetP context) := by
  have hnext := fun blocking =>
    h.nextSequence hserver hsequence serverObjP now blocking
  unfold prvHandleRegistrationSequenceFailure
  split
  · split
    · dsimp only
      split
      · exact (h.start now false).nextSequence (registrationStart_pending hserver hpending now false)
          hsequence serverObjP now false
      · exact hnext false
    · exact hnext true
    · exact hnext false
  · exact hnext false

theorem AllFit.attemptFailure (h : AllFit context)
    (hserver : context.serverList[index]? = some server) (hpending : server.status = .regPending)
    (hattempt : targetP.attempt = server.attempt) (hsequence : targetP.sequence = server.sequence)
    (now : Int) : AllFit (prvHandleRegistrationAttemptFailure now index targetP context) := by
  have hfailed : AllFit
      (context.modifyServer index fun target => { target with status := .regFailed }) :=
    h.modifyServer fun target _ => .failed target
  unfold prvHandleRegistrationAttemptFailure
  cases hobj : context.serverObj with
  | none => exact hfailed
  | some serverObjP =>
    dsimp only
    cases hlimit : prvGetRegistrationAttemptLimit serverObjP targetP with
    | error code => exact hfailed
    | ok limits =>
      dsimp only
      split
      · exact h.sequenceFailure hserver hpending hsequence serverObjP now
      · rename_i hlow
        refine h.modifyServer fun target htarget => ?_
        obtain rfl := Option.some.inj (hserver.symm.trans htarget)
        obtain ⟨hne, -, hmost⟩ := (h server (List.mem_of_getElem? hserver)).pending hpending
        have hlimit := attemptLimit_le hlimit
        rw [UInt8.le_iff_toNat_le] at hlimit hlow
        have hlargest : (254 : UInt8).toNat = 254 := rfl
        rw [hattempt] at hlow
        constructor
        · exact nofun
        · intro _
          exact ⟨by dsimp only; omega, hmost, fun hzero => absurd hzero hne⟩

theorem AllFit.startNext (h : AllFit context) (now : Int) (targetP : RegistrationServer) :
    AllFit (startNext now targetP context) := by
  unfold Wakaama.startNext
  split
  · exact h
  · split
    · split
      · exact h.start now false
      · split
        · exact h.start now false
        · exact h
    · exact h

theorem AllFit.reply (h : AllFit context) (now : Int) (index : Nat) (packet : Option ReplyPacket) :
    AllFit (prvHandleRegistrationReply now index packet context) := by
  unfold prvHandleRegistrationReply
  cases hserver : context.serverList[index]? with
  | none => exact h
  | some server =>
    dsimp only
    split
    · rename_i hpending
      obtain ⟨timed, hfits, registration, htimed⟩ : ∃ timed, AllFit timed ∧
          ∃ registration, timed.serverList[index]? = some (retimed server registration) ∧
            (if 0 ≤ now then
              context.modifyServer index fun target => { target with registration := now }
            else context) = timed := by
        by_cases hclock : 0 ≤ now
        · refine ⟨_, ?_, now, ?_, if_pos hclock⟩
          · exact h.modifyServer fun target htarget =>
              (h target (List.mem_of_getElem? htarget)).congr rfl rfl rfl
          · rw [modifyServer_eq _ hserver]
            dsimp only
            rw [set_getElem? hserver, if_pos rfl]
            rfl
        · exact ⟨context, h, server.registration, hserver, if_neg hclock⟩
      rw [htimed.2]
      split
      · exact hfits
      · split
        · refine AllFit.startNext (hfits.modifyServer fun target _ => ?_) now server
          exact .off nofun nofun
        · exact hfits.attemptFailure htimed.1 hpending rfl rfl now
    · exact h

theorem AllFit.next {context : RegistrationContext} (h : AllFit context) (call : RegistrationCall) :
    AllFit (registrationNext context call) := by
  cases call with
  | start now => exact h.start now true
  | step currentTime env =>
    intro server' hmem
    obtain ⟨server, hserver, rfl⟩ := List.mem_map.mp hmem
    exact (h server hserver).quiet (registrationStepCounted_quiet currentTime _ server).2
  | reply now index packet => exact h.reply now index packet
  | updateReply now index packet =>
    refine h.modifyServer fun server hserver => ?_
    exact (h server (List.mem_of_getElem? hserver)).quiet (updateReply_quiet now packet server).2

theorem registrationRun_fits {final : RegistrationContext} (h : AllFit context)
    {calls : List RegistrationCall} {replies : List RegistrationReply}
    (hrun : run registrationCallStep context calls = .ok (final, replies)) : AllFit final := by
  have hmeet : ∀ (context : RegistrationContext) calls,
      StepsMeet registrationCallStep (fun _ _ => True) context calls := by
    intro context calls
    induction calls generalizing context with
    | nil => trivial
    | cons call calls ih => exact ⟨trivial, fun context' _ _ => ih context'⟩
  refine run_invariant ?_ calls context final replies h (hmeet context calls) hrun
  intro context call context' reply hfits _ hstep
  rw [← (Prod.mk.inj (Except.ok.inj hstep)).1]
  exact hfits.next call

/-- Behind every run a registration that is sent wraps no counter, and a failed attempt is tried
again when its back-off says exactly where the shift and the time are in range. -/
theorem registrationRetries_iff {context final : RegistrationContext}
    (hfresh : ∀ server ∈ context.serverList, server.status = .deregistered)
    {calls : List RegistrationCall} {replies : List RegistrationReply}
    (hrun : run registrationCallStep context calls = .ok (final, replies)) :
    (∀ server ∈ final.serverList, ∀ currentTime env,
      server.attempt ≤ (registrationStepCounted currentTime env server).attempt ∧
        server.sequence ≤ (registrationStepCounted currentTime env server).sequence) ∧
    ∀ index targetP delay, HasAttempt index targetP final delay → ∀ now,
      (BacksOff now delay index targetP final ↔ BackOffFits now delay targetP.attempt) := by
  have hfits : AllFit final := by
    refine registrationRun_fits ?_ hrun
    intro server hmem
    have hstatus := hfresh server hmem
    refine .off ?_ ?_
    · rw [hstatus]
      nofun
    · rw [hstatus]
      nofun
  refine ⟨fun server hmem currentTime env => (hfits server hmem).step currentTime env, ?_⟩
  intro index targetP delay hattempt now
  exact backsOff_iff hattempt

/-- A Server object with a retry count and a retry timer. -/
def retryReader (count timer : UInt64) : ServerReader := fun _ resourceId =>
  if resourceId = lwm2mServerCommRetryCountId then
    (.content205, .node .unsignedInteger resourceId (.asUnsigned count))
  else if resourceId = lwm2mServerCommRetryTimerId then
    (.content205, .node .unsignedInteger resourceId (.asUnsigned timer))
  else (.notFound404, .node .undefined resourceId .zero)

/-- One server that is not ordered. -/
def retryContext (count timer : UInt64) : RegistrationContext where
  state := .registering
  serverList := [orderedServer 0 .deregistered]
  serverObj := some (retryReader count timer)

/-- Registrations that time out, and one that is sent. -/
def timedOutRuns (count : Nat) : List RegistrationCall :=
  .start 0 :: (List.replicate count [
      RegistrationCall.step (10 ^ 15) fun _ => everythingSent,
      RegistrationCall.reply 0 0 none]).flatten ++ [.step (10 ^ 15) fun _ => everythingSent]

theorem retryContext_retries : ∃ final replies,
    run registrationCallStep (retryContext 40 60) (timedOutRuns 2) = .ok (final, replies) ∧
    (∀ server ∈ final.serverList, ∀ currentTime env,
      server.attempt ≤ (registrationStepCounted currentTime env server).attempt ∧
        server.sequence ≤ (registrationStepCounted currentTime env server).sequence) ∧
    ∀ index targetP delay, HasAttempt index targetP final delay → ∀ now,
      (BacksOff now delay index targetP final ↔ BackOffFits now delay targetP.attempt) := by
  refine ⟨_, _, rfl, ?_⟩
  refine @registrationRetries_iff (retryContext 40 60) _ ?_ (timedOutRuns 2) _ rfl
  intro server hmem
  rw [List.mem_singleton.mp hmem]
  rfl

set_option maxRecDepth 10000 in
/-- With 40 retries the shift is undefined behind the 32nd attempt, and with a timer of 2 ^ 63 the
first retry lies before now. -/
theorem retries_undefined :
    (∃ final replies targetP,
      run registrationCallStep (retryContext 40 60) (timedOutRuns 31) = .ok (final, replies) ∧
      final.serverList[0]? = some targetP ∧ HasAttempt 0 targetP final 60 ∧
      ¬ BacksOff 1000 60 0 targetP final) ∧
    ∃ final replies targetP,
      run registrationCallStep (retryContext 40 (2 ^ 63)) (timedOutRuns 0) = .ok (final, replies) ∧
      final.serverList[0]? = some targetP ∧ HasAttempt 0 targetP final (2 ^ 63) ∧
      ¬ BacksOff 1000 (2 ^ 63) 0 targetP final := by
  constructor
  · refine ⟨_, _, _, rfl, rfl, ⟨by decide +kernel, _, _, rfl, rfl, by decide +kernel⟩, ?_⟩
    intro hback
    exact absurd hback.defined (by decide +kernel)
  · refine ⟨_, _, _, rfl, rfl, ⟨by decide +kernel, _, _, rfl, rfl, by decide +kernel⟩, ?_⟩
    intro hback
    exact absurd hback.time (by decide +kernel)

end Wakaama
