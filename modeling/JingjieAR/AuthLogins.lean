import JingjieAR.AuthServiceModel
import Mathlib.Data.List.TakeWhile

/-! Logins that run into each other. What a call has been told it can rely on, since it is told
so only after the command was carried out; that it goes on for the right reasons is read off its
text; and the table changes only where the commands change it. -/
namespace JingjieAR

open Callbacks (Task Callback Event callCount)
open Runs (Run)

namespace AuthService

variable {hashing : PasswordHashing}

/-- A hash of the password, of either kind. -/
def HashOf (hashing : PasswordHashing) (password hash : Bytes) : Prop :=
  (∃ salt, hashing.argon2 salt password = some hash) ∨
    hash = legacyPasswordHash hashing password

theorem legacy_of_needsUpgrade {password storedHash : Bytes}
    (h : (verifyPassword hashing password storedHash).2 = true) :
    storedHash = legacyPasswordHash hashing password := by
  unfold verifyPassword at h
  split at h
  · simp at h
  · split at h
    · simp at h
    · simp only [Bool.and_eq_true, beq_iff_eq] at h
      exact h.2.symm

theorem verifyPassword_hashOf {password storedHash : Bytes}
    (hstored : cString storedHash = storedHash)
    (h : (verifyPassword hashing password storedHash).1 = true) :
    HashOf hashing password storedHash := by
  unfold verifyPassword at h
  split at h
  · rw [hstored] at h
    exact .inl ((hashing.argon2idVerify_iff storedHash password).mp h)
  · split at h
    · simp at h
    · simp only [Bool.and_eq_true, beq_iff_eq] at h
      exact .inr h.2.symm

theorem passwordHash_eq_some {salt : Option Bytes} {password : Bytes}
    (h : passwordHash hashing salt password ≠ []) :
    ∃ salt', hashing.argon2 salt' password = some (passwordHash hashing salt password) := by
  cases salt with
  | none => exact absurd rfl h
  | some salt =>
    refine ⟨salt, ?_⟩
    simp only [passwordHash] at h ⊢
    cases hargon : hashing.argon2 salt password with
    | none => simp [hargon] at h
    | some hash => rfl

section Calls

variable {completion : Completion} {rest : AuthTask} {n m : ℕ}

theorem createSession_calls (h : completion.Calls n) (hrest : rest.Calls m) (userId : ℕ)
    (username : Bytes) (isNew : Bool) :
    (createSession userId username isNew completion rest).Calls (n+m) := by
  apply Task.Calls.ask
  intro random
  simp only
  split
  · exact h _ rest m hrest
  · apply Task.Calls.start ?_ hrest
    intro id
    split
    · exact h.last _
    · exact h.last _

theorem authenticate_calls (h : completion.Calls n) (hrest : rest.Calls m) (store : Bool)
    (username password : Bytes) :
    (authenticate hashing store username password completion rest).Calls (n+m) := by
  unfold authenticate
  split
  · exact h _ rest m hrest
  · apply Task.Calls.start ?_ hrest
    intro user
    cases user with
    | some user =>
      simp only
      split
      · exact h.last _
      · split
        · -- the hash is of the old kind
          apply Task.Calls.ask
          intro salt
          split
          · exact h.last _
          · apply Task.Calls.start (m := 0) ?_ Task.calls_done
            intro updated
            split
            · exact h.last _
            · exact createSession_calls (m := 0) h Task.calls_done _ _ _
        · exact createSession_calls (m := 0) h Task.calls_done _ _ _
    | none =>
      apply Task.Calls.ask
      intro salt
      simp only
      split
      · exact h.last _
      · apply Task.Calls.start (m := 0) ?_ Task.calls_done
        intro userId
        split
        · exact h.last _
        · exact createSession_calls (m := 0) h Task.calls_done _ _ _

end Calls

section Gates

variable {username password : Bytes} {known : List AuthEvent}

/-- The call has verified the password of this user, or it has created the user with a hash of
the password. -/
def Earned (hashing : PasswordHashing) (username password : Bytes) (known : List AuthEvent)
    (userId : ℕ) : Prop :=
  (∃ user : User, .completed (.findUser username) (some user) ∈ known ∧ user.id = userId ∧
    (verifyPassword hashing password user.passwdHash).1 = true) ∨
  ∃ salt hash, hashing.argon2 salt password = some hash ∧ userId ≠ 0 ∧
    .completed (.createUser username hash) userId ∈ known

/-- The old hash of this user was verified, and the new one is a hash of the same password. -/
def Upgrades (hashing : PasswordHashing) (username password : Bytes) (known : List AuthEvent)
    (userId : ℕ) (hash : Bytes) : Prop :=
  (∃ user : User, .completed (.findUser username) (some user) ∈ known ∧ user.id = userId ∧
    (verifyPassword hashing password user.passwdHash).1 = true ∧
    user.passwdHash = legacyPasswordHash hashing password) ∧
  ∃ salt, hashing.argon2 salt password = some hash

/-- What a login with this name and password may do. -/
def Allowed (hashing : PasswordHashing) (username password : Bytes) (known : List AuthEvent) :
    AuthEvent → Prop
  | .called (result, status) =>
      status = 200 → Earned hashing username password known result.userId
  | .started (.updatePasswordHash userId hash) =>
      Upgrades hashing username password known userId hash
  | .started (.createUser name hash) =>
      name = username ∧ ∃ salt, hashing.argon2 salt password = some hash
  | _ => True

theorem Earned.mono {known' : List AuthEvent} {userId : ℕ}
    (h : Earned hashing username password known userId) (hsub : known ⊆ known') :
    Earned hashing username password known' userId := by
  rcases h with ⟨user, hmem, hrest⟩ | ⟨salt, hash, hargon, hid, hmem⟩
  · exact .inl ⟨user, hsub hmem, hrest⟩
  · exact .inr ⟨salt, hash, hargon, hid, hsub hmem⟩

theorem allowed_lasting (username password : Bytes) :
    Task.Lasting (Allowed hashing username password) := by
  intro known known' e hsub h
  cases e with
  | called value =>
    intro hstatus
    exact (h hstatus).mono hsub
  | started op =>
    cases op with
    | updatePasswordHash userId hash =>
      obtain ⟨⟨user, hmem, hrest⟩, hhash⟩ := h
      exact ⟨⟨user, hsub hmem, hrest⟩, hhash⟩
    | createUser name hash => exact h
    | _ => trivial
  | _ => trivial

theorem gated_refused (status : ℕ) (hstatus : status ≠ 200) :
    Task.Gated (Allowed hashing username password) known (.call ({}, status) .done) := by
  refine ⟨?_, trivial⟩
  intro h
  exact absurd h hstatus

theorem gated_createSession {userId : ℕ} (name : Bytes) (isNew : Bool)
    (h : Earned hashing username password known userId) :
    (createSession userId name isNew .call .done).Gated (Allowed hashing username password)
      known := by
  intro random
  simp only
  split
  · exact gated_refused 503 (by decide)
  · refine ⟨trivial, ?_, trivial⟩
    intro id
    simp only
    split
    · refine ⟨?_, trivial⟩
      intro _
      apply h.mono
      intro e he
      exact List.mem_cons_of_mem _ (List.mem_cons_of_mem _ he)
    · exact gated_refused 503 (by decide)

theorem gated_authenticate (store : Bool) (username password : Bytes) :
    (authenticate hashing store username password .call .done).Gated
      (Allowed hashing username password) [] := by
  unfold authenticate
  split
  · exact gated_refused 503 (by decide)
  · refine ⟨trivial, ?_, trivial⟩
    intro user
    cases user with
    | some user =>
      simp only
      split
      · exact gated_refused 401 (by decide)
      -- the user is known, and so is the password
      · rename_i hverified
        have hverified : (verifyPassword hashing password user.passwdHash).1 = true := by
          simpa using hverified
        split
        · rename_i hupgrade
          intro salt
          simp only
          split
          · exact gated_refused 503 (by decide)
          · rename_i hhash
            -- the new hash replaces one of the old kind
            have hlegacy := legacy_of_needsUpgrade hupgrade
            refine ⟨⟨⟨user, by simp, rfl, hverified, hlegacy⟩, ?_⟩, ?_, trivial⟩
            · exact passwordHash_eq_some (by simpa using hhash)
            · intro updated
              simp only
              split
              · exact gated_refused 503 (by decide)
              · apply gated_createSession
                exact .inl ⟨user, by simp, rfl, hverified⟩
        · apply gated_createSession
          exact .inl ⟨user, by simp, rfl, hverified⟩
    -- nobody was found, which a failed lookup looks like as well
    | none =>
      intro salt
      simp only
      split
      · exact gated_refused 503 (by decide)
      · rename_i hhash
        have hne : passwordHash hashing salt password ≠ [] := by simpa using hhash
        obtain ⟨salt', hargon⟩ := passwordHash_eq_some hne
        refine ⟨⟨rfl, salt', hargon⟩, ?_, trivial⟩
        intro userId
        simp only
        split
        · exact gated_refused 503 (by decide)
        · rename_i hid
          apply gated_createSession
          exact .inr ⟨salt', _, hargon, hid, by simp⟩

end Gates

end AuthService

namespace AuthWorld

variable {κ : Type*} [DecidableEq κ] {collate : Bytes → κ} {w w' : AuthWorld}
  {label : AuthLabel} {labels : List AuthLabel} {users : List User}

theorem step_carriedOut {call : ℕ} {op : AuthOp} {reply : op.Reply}
    (h : Step collate w (.carriedOut call op reply) w') :
    ∃ users, (call, op) ∈ w.inFlight ∧ carryOut collate w.users op reply = some users ∧
      w' = { users := users, inFlight := w.inFlight.erase (call, op),
             results := (call, ⟨op, reply⟩) :: w.results } := by
  simp only [Step, next, Option.ite_none_right_eq_some] at h
  obtain ⟨hflight, h⟩ := h
  obtain ⟨users, hcarry, rfl⟩ := Option.map_eq_some_iff.mp h
  exact ⟨users, hflight, hcarry, rfl⟩

/-- What a step can be. -/
theorem step_cases (h : Step collate w label w') :
    (∃ call op, label = .event call (.started op) ∧
      w' = { w with inFlight := (call, op) :: w.inFlight }) ∨
    (∃ call op reply, label = .event call (.completed op reply) ∧
      ((call, ⟨op, reply⟩) ∈ w.results ∨ reply = op.failure) ∧ w' = w) ∨
    ((∃ call e, label = .event call e) ∧ w' = w) ∨
    ∃ call op reply users, label = .carriedOut call op reply ∧ (call, op) ∈ w.inFlight ∧
      carryOut collate w.users op reply = some users ∧
      w' = { users := users, inFlight := w.inFlight.erase (call, op),
             results := (call, ⟨op, reply⟩) :: w.results } := by
  cases label with
  | event call e =>
    cases e with
    | started op => exact .inl ⟨call, op, rfl, (Option.some.inj h).symm⟩
    | completed op reply =>
      simp only [Step, next, Option.ite_none_right_eq_some] at h
      exact .inr (.inl ⟨call, op, reply, rfl, h.1, (Option.some.inj h.2).symm⟩)
    | called value => exact .inr (.inr (.inl ⟨⟨call, _, rfl⟩, (Option.some.inj h).symm⟩))
    | asked op reply => exact .inr (.inr (.inl ⟨⟨call, _, rfl⟩, (Option.some.inj h).symm⟩))
    | submitted accepted => exact .inr (.inr (.inl ⟨⟨call, _, rfl⟩, (Option.some.inj h).symm⟩))
  | carriedOut call op reply =>
    obtain ⟨users, hflight, hcarry, rfl⟩ := step_carriedOut h
    exact .inr (.inr (.inr ⟨call, op, reply, users, rfl, hflight, hcarry, rfl⟩))

/-- An answer comes from the execution of the command. -/
theorem carriedOut_of_result {call : ℕ} {op : AuthOp} {reply : op.Reply}
    (h : Step collate w label w') (hnot : (call, ⟨op, reply⟩) ∉ w.results)
    (hmem : (call, ⟨op, reply⟩) ∈ w'.results) : label = .carriedOut call op reply := by
  rcases step_cases h with ⟨call', op', rfl, rfl⟩ | ⟨call', op', reply', rfl, -, rfl⟩ |
    ⟨⟨call', e, rfl⟩, rfl⟩ | ⟨call', op', reply', users, rfl, -, -, rfl⟩
  · exact absurd hmem hnot
  · exact absurd hmem hnot
  · exact absurd hmem hnot
  · rcases List.mem_cons.mp hmem with heq | hold
    · cases heq
      rfl
    · exact absurd hold hnot

/-- A command is in flight only after it was started. -/
theorem started_of_inFlight {call : ℕ} {op : AuthOp} (h : Step collate w label w')
    (hnot : (call, op) ∉ w.inFlight) (hmem : (call, op) ∈ w'.inFlight) :
    label = .event call (.started op) := by
  rcases step_cases h with ⟨call', op', rfl, rfl⟩ | ⟨call', op', reply', rfl, -, rfl⟩ |
    ⟨⟨call', e, rfl⟩, rfl⟩ | ⟨call', op', reply', users, rfl, -, -, rfl⟩
  · rcases List.mem_cons.mp hmem with heq | hold
    · obtain ⟨rfl, rfl⟩ := Prod.mk.inj heq
      rfl
    · exact absurd hold hnot
  · exact absurd hmem hnot
  · exact absurd hmem hnot
  · exact absurd (List.mem_of_mem_erase hmem) hnot

theorem mem_eventsOf {call : ℕ} {e : AuthEvent} (h : e ∈ eventsOf call labels) :
    .event call e ∈ labels := by
  obtain ⟨label, hmem, hlabel⟩ := List.mem_filterMap.mp h
  cases label with
  | event i e' =>
    simp only [Option.ite_none_right_eq_some] at hlabel
    obtain ⟨rfl, he⟩ := hlabel
    obtain rfl := Option.some.inj he
    exact hmem
  | carriedOut i op reply => simp at hlabel

theorem eventsOf_append (call : ℕ) (pre post : List AuthLabel) :
    eventsOf call (pre++post) = eventsOf call pre++eventsOf call post :=
  List.filterMap_append

/-- A call that is told of a success is told of the execution. -/
theorem carriedOut_of_told {call : ℕ} {op : AuthOp} {reply : op.Reply}
    (hr : Run (Step collate) { users := users } labels w)
    (hmem : .event call (.completed op reply) ∈ labels) (hreply : reply ≠ op.failure) :
    ∃ pre post w₁ w₂, labels = pre++.carriedOut call op reply :: post ∧
      Run (Step collate) { users := users } pre w₁ ∧
      Step collate w₁ (.carriedOut call op reply) w₂ := by
  obtain ⟨pre, post, rfl⟩ := List.append_of_mem hmem
  obtain ⟨w₁, hpre, hpost⟩ := hr.split
  cases hpost with
  | cons htold _ =>
    simp only [Step, next, Option.ite_none_right_eq_some] at htold
    have hresult : (call, ⟨op, reply⟩) ∈ w₁.results := htold.1.resolve_right hreply
    obtain ⟨pre₁, label, post₁, w₂, w₃, rfl, hpre₁, hstep, -, hnot, hyes⟩ :=
      hpre.enters (p := fun w => (call, ⟨op, reply⟩) ∈ w.results) (by simp) hresult
    obtain rfl := carriedOut_of_result hstep hnot hyes
    exact ⟨pre₁, _, w₂, w₃, List.append_assoc pre₁ _ _, hpre₁, hstep⟩

/-- A command that is carried out was started by its call. -/
theorem started_of_carriedOut {call : ℕ} {op : AuthOp} {reply : op.Reply}
    (hr : Run (Step collate) { users := users } labels w)
    (hs : Step collate w (.carriedOut call op reply) w') :
    .event call (.started op) ∈ labels := by
  obtain ⟨_, hflight, -, -⟩ := step_carriedOut hs
  obtain ⟨pre, label, post, w₁, w₂, rfl, -, hstep, -, hnot, hyes⟩ :=
    hr.enters (p := fun w => (call, op) ∈ w.inFlight) (by simp) hflight
  obtain rfl := started_of_inFlight hstep hnot hyes
  simp

/-- The keys of the table: `PRIMARY KEY (id)` and `UNIQUE KEY (username)`. -/
structure Keyed (collate : Bytes → κ) (users : List User) : Prop where
  ids : (users.map (·.id)).Nodup
  names : (users.map (fun user => collate user.username)).Nodup

/-- The name is taken, or the row is added under a new id. -/
theorem createUser_cases {users' : List User} {username hash : Bytes} {newId : ℕ}
    (hc : createUser collate users username hash newId = some users') :
    (newId = 0 ∧ users' = users) ∨
      (newId ≠ 0 ∧ (∀ user ∈ users, collate user.username ≠ collate username) ∧
        (∀ user ∈ users, user.id ≠ newId) ∧
        users' = users++[{ id := newId, username := username, passwdHash := hash }]) := by
  unfold createUser at hc
  split at hc
  · simp only [Option.ite_none_right_eq_some] at hc
    exact .inl ⟨hc.1, (Option.some.inj hc.2).symm⟩
  · rename_i hfree
    simp only [Option.ite_none_right_eq_some, Bool.and_eq_true] at hc
    obtain ⟨⟨hid, hfresh⟩, hc⟩ := hc
    refine .inr ⟨by simpa using hid, ?_, ?_, (Option.some.inj hc).symm⟩
    · intro user hmem heq
      exact hfree (List.any_eq_true.mpr ⟨user, hmem, by simpa [named] using heq⟩)
    · intro user hmem
      simpa using List.all_eq_true.mp hfresh user hmem

theorem Keyed.createUser {users' : List User} {username hash : Bytes} {newId : ℕ}
    (h : Keyed collate users) (hc : createUser collate users username hash newId = some users') :
    Keyed collate users' := by
  rcases createUser_cases hc with ⟨-, rfl⟩ | ⟨-, hname, hid, rfl⟩
  · exact h
  · refine ⟨?_, ?_⟩
    · rw [List.map_append, List.nodup_append]
      refine ⟨h.ids, by simp, ?_⟩
      intro a ha b hb
      obtain ⟨user, huser, rfl⟩ := List.mem_map.mp ha
      obtain rfl : b = newId := by simpa using hb
      exact hid user huser
    · rw [List.map_append, List.nodup_append]
      refine ⟨h.names, by simp, ?_⟩
      intro a ha b hb
      obtain ⟨user, huser, rfl⟩ := List.mem_map.mp ha
      obtain rfl : b = collate username := by simpa using hb
      exact hname user huser

/-- An update of the hash leaves every other column alone. -/
theorem map_updatePasswordHash {β : Type*} (column : User → β)
    (hcolumn : ∀ user hash, column { user with passwdHash := hash } = column user)
    (users : List User) (userId : ℕ) (hash : Bytes) :
    (updatePasswordHash users userId hash).map column = users.map column := by
  unfold updatePasswordHash
  rw [List.map_map]
  apply List.map_congr_left
  intro user _
  simp only [Function.comp]
  split
  · exact hcolumn user hash
  · rfl

theorem Keyed.carryOut {users' : List User} {op : AuthOp} {reply : op.Reply}
    (h : Keyed collate users) (hc : carryOut collate users op reply = some users') :
    Keyed collate users' := by
  cases op with
  | random length => simp [AuthWorld.carryOut] at hc
  | findUser username =>
    simp only [AuthWorld.carryOut, Option.ite_none_right_eq_some] at hc
    obtain rfl := Option.some.inj hc.2
    exact h
  | createUser username hash => exact Keyed.createUser h hc
  | updatePasswordHash userId hash =>
    simp only [AuthWorld.carryOut, Option.ite_none_right_eq_some] at hc
    obtain rfl := Option.some.inj hc.2
    refine ⟨?_, ?_⟩
    · rw [map_updatePasswordHash (·.id) (fun _ _ => rfl)]
      exact h.ids
    · rw [map_updatePasswordHash (fun user => collate user.username) (fun _ _ => rfl)]
      exact h.names
  | createSession userId token =>
    obtain rfl := Option.some.inj hc
    exact h

theorem Keyed.step (h : Keyed collate w.users) (hs : Step collate w label w') :
    Keyed collate w'.users := by
  rcases step_cases hs with ⟨call, op, -, rfl⟩ | ⟨call, op, reply, -, -, rfl⟩ | ⟨-, rfl⟩ |
    ⟨call, op, reply, users, -, -, hcarry, rfl⟩
  · exact h
  · exact h
  · exact h
  · exact h.carryOut hcarry

theorem Keyed.run (h : Keyed collate users) (hr : Run (Step collate) { users := users } labels w) :
    Keyed collate w.users :=
  @Run.invariant _ _ _ (fun w => Keyed collate w.users) _ _ _ (fun _ _ _ h hs => h.step hs) hr h

omit [DecidableEq κ] in
/-- Rows with one id are one row. -/
theorem Keyed.eq_of_id (h : Keyed collate users) {user user' : User} (hmem : user ∈ users)
    (hmem' : user' ∈ users) (hid : user.id = user'.id) : user = user' :=
  List.inj_on_of_nodup_map h.ids hmem hmem' hid

/-- A hash is replaced by an update of its row, and by nothing else. -/
theorem update_of_replaced {users' : List User} {op : AuthOp} {reply : op.Reply}
    (h : Keyed collate users) (hc : carryOut collate users op reply = some users')
    {user user' : User} (hmem : user ∈ users) (hmem' : user' ∈ users') (hid : user'.id = user.id)
    (hhash : user'.passwdHash ≠ user.passwdHash) :
    op = .updatePasswordHash user.id user'.passwdHash := by
  have hsame (hold : user' ∈ users) : op = .updatePasswordHash user.id user'.passwdHash := by
    obtain rfl := h.eq_of_id hold hmem hid
    exact absurd rfl hhash
  cases op with
  | random length => simp [AuthWorld.carryOut] at hc
  | findUser username =>
    simp only [AuthWorld.carryOut, Option.ite_none_right_eq_some] at hc
    obtain rfl := Option.some.inj hc.2
    exact hsame hmem'
  | createUser username hash =>
    rcases createUser_cases hc with ⟨-, rfl⟩ | ⟨-, -, hfresh, rfl⟩
    · exact hsame hmem'
    · rcases List.mem_append.mp hmem' with hold | hnew
      · exact hsame hold
      · obtain rfl := List.mem_singleton.mp hnew
        exact absurd hid.symm (hfresh user hmem)
  | updatePasswordHash userId hash =>
    simp only [AuthWorld.carryOut, Option.ite_none_right_eq_some] at hc
    obtain rfl := Option.some.inj hc.2
    obtain ⟨old, hold, rfl⟩ := List.mem_map.mp hmem'
    -- the row that it was before; the update leaves the id
    have hold_id : old.id = user.id := by
      rw [← hid]
      split <;> rfl
    obtain rfl := h.eq_of_id hold hmem hold_id
    by_cases hrow : old.id = userId
    · simp [hrow]
    · simp [hrow] at hhash
  | createSession userId token =>
    obtain rfl := Option.some.inj hc
    exact hsame hmem'

section Logins

variable {hashing : PasswordHashing} {store : Bool} {calls : ℕ → Option (Bytes × Bytes)}

/-- Every call does what a login with its name and password does. -/
def Follows (hashing : PasswordHashing) (store : Bool) (calls : ℕ → Option (Bytes × Bytes))
    (labels : List AuthLabel) : Prop :=
  ∀ call,
    match calls call with
    | some (username, password) =>
        (AuthService.authenticate hashing store username password .call .done).SoFar
          (eventsOf call labels)
    | none => eventsOf call labels = []

/-- A call does nothing but what is allowed to its login. -/
theorem Follows.allowed (h : Follows hashing store calls labels) {pre post : List AuthLabel}
    {call : ℕ} {e : AuthEvent} (heq : labels = pre++.event call e :: post) (hown : e.isOwn) :
    ∃ username password, calls call = some (username, password) ∧
      AuthService.Allowed hashing username password (eventsOf call pre) e := by
  have hevents : eventsOf call labels = eventsOf call pre++e :: eventsOf call post := by
    rw [heq, eventsOf_append]
    simp [eventsOf]
  have hcall := h call
  cases hlogin : calls call with
  | none =>
    rw [hlogin] at hcall
    simp [hevents] at hcall
  | some login =>
    obtain ⟨username, password⟩ := login
    rw [hlogin] at hcall
    have hsofar : (AuthService.authenticate hashing store username password .call .done).SoFar
        (eventsOf call pre++e :: eventsOf call post) := by
      rw [← hevents]
      exact hcall
    refine ⟨username, password, rfl, ?_⟩
    exact hsofar.allowed (AuthService.allowed_lasting username password)
      (AuthService.gated_authenticate store username password) hown

/-- The call has looked the user up, and the password is that of the hash that was stored. -/
def VerifiedAtLookup (hashing : PasswordHashing) (collate : Bytes → κ) (users : List User)
    (labels : List AuthLabel) (call : ℕ) (username password : Bytes) (userId : ℕ) : Prop :=
  ∃ pre post w row, labels = pre++.carriedOut call (.findUser username) (some (read row)) :: post ∧
    Run (Step collate) { users := users } pre w ∧ row ∈ w.users ∧
    collate row.username = collate username ∧ row.id = userId ∧
    (AuthService.verifyPassword hashing password (cString row.passwdHash)).1 = true ∧
    AuthService.HashOf hashing password (cString row.passwdHash)

/-- The call has added the account to the table, with a hash of the password. -/
def InsertedByCall (hashing : PasswordHashing) (collate : Bytes → κ) (users : List User)
    (labels : List AuthLabel) (call : ℕ) (username password : Bytes) (userId : ℕ) : Prop :=
  ∃ pre post w w' salt hash,
    labels = pre++.carriedOut call (.createUser username hash) userId :: post ∧
    Run (Step collate) { users := users } pre w ∧
    Step collate w (.carriedOut call (.createUser username hash) userId) w' ∧
    hashing.argon2 salt password = some hash ∧
    w'.users = w.users++[{ id := userId, username := username, passwdHash := hash }]

theorem cString_cString (text : Bytes) : cString (cString text) = cString text :=
  List.takeWhile_idem

theorem earned_in_table {username password : Bytes} {userId call : ℕ}
    (hr : Run (Step collate) { users := users } labels w)
    (h : AuthService.Earned hashing username password (eventsOf call labels) userId) :
    VerifiedAtLookup hashing collate users labels call username password userId ∨
      InsertedByCall hashing collate users labels call username password userId := by
  rcases h with ⟨user, hmem, rfl, hverified⟩ | ⟨salt, hash, hargon, hid, hmem⟩
  · obtain ⟨pre, post, w₁, w₂, rfl, hpre, hstep⟩ :=
      carriedOut_of_told hr (mem_eventsOf hmem) (Option.some_ne_none user)
    -- the row that was found
    obtain ⟨users', -, hcarry, -⟩ := step_carriedOut hstep
    simp only [carryOut, Option.ite_none_right_eq_some] at hcarry
    obtain ⟨row, hfind, rfl⟩ := Option.map_eq_some_iff.mp hcarry.1.symm
    have hname : collate row.username = collate username := by
      simpa [named] using List.find?_some hfind
    refine .inl ⟨pre, post, w₁, row, rfl, hpre, List.mem_of_find?_eq_some hfind, hname, rfl,
      hverified, ?_⟩
    exact AuthService.verifyPassword_hashOf (cString_cString row.passwdHash) hverified
  · obtain ⟨pre, post, w₁, w₂, rfl, hpre, hstep⟩ :=
      carriedOut_of_told hr (mem_eventsOf hmem) hid
    -- an id that is not 0 is that of a row this command has added
    obtain ⟨users', -, hcarry, rfl⟩ := step_carriedOut hstep
    rcases createUser_cases hcarry with ⟨hzero, -⟩ | ⟨-, -, -, rfl⟩
    · exact absurd hzero hid
    · exact .inr ⟨pre, post, w₁, _, salt, hash, rfl, hpre, hstep, hargon, rfl⟩

/-- The call has verified the password against the old hash of the user, and the new hash is one
of the same password. -/
def UpgradedByCall (hashing : PasswordHashing) (calls : ℕ → Option (Bytes × Bytes))
    (labels : List AuthLabel) (userId : ℕ) (hash : Bytes) : Prop :=
  ∃ call username password found, calls call = some (username, password) ∧
    .event call (.completed (.findUser username) (some found)) ∈ labels ∧ found.id = userId ∧
    (AuthService.verifyPassword hashing password found.passwdHash).1 = true ∧
    found.passwdHash = AuthService.legacyPasswordHash hashing password ∧
    ∃ salt, hashing.argon2 salt password = some hash

theorem upgraded_of_replaced {pre post : List AuthLabel} {w₁ w₂ : AuthWorld} {user user' : User}
    (hkeyed : Keyed collate users) (hfollows : Follows hashing store calls (pre++label :: post))
    (hpre : Run (Step collate) { users := users } pre w₁) (hstep : Step collate w₁ label w₂)
    (hmem : user ∈ w₁.users) (hmem' : user' ∈ w₂.users) (hid : user'.id = user.id)
    (hhash : user'.passwdHash ≠ user.passwdHash) :
    UpgradedByCall hashing calls pre user.id user'.passwdHash := by
  have hkeyed₁ := hkeyed.run hpre
  have hsame (hold : user' ∈ w₁.users) :
      UpgradedByCall hashing calls pre user.id user'.passwdHash := by
    obtain rfl := hkeyed₁.eq_of_id hold hmem hid
    exact absurd rfl hhash
  rcases step_cases hstep with ⟨call, op, -, rfl⟩ | ⟨call, op, reply, -, -, rfl⟩ | ⟨-, rfl⟩ |
    ⟨call, op, reply, users', rfl, -, hcarry, rfl⟩
  · exact hsame hmem'
  · exact hsame hmem'
  · exact hsame hmem'
  · obtain rfl := update_of_replaced hkeyed₁ hcarry hmem hmem' hid hhash
    -- the call that has started the update
    obtain ⟨pre₁, pre₂, rfl⟩ := List.append_of_mem (started_of_carriedOut hpre hstep)
    obtain ⟨username, password, hcall, ⟨found, hfound, hrest⟩, hsalt⟩ :=
      hfollows.allowed (List.append_assoc pre₁ _ _) rfl
    have hlabel := mem_eventsOf hfound
    refine ⟨call, username, password, found, hcall, ?_, hrest.1, hrest.2.1, hrest.2.2, hsalt⟩
    exact List.mem_append_left _ hlabel

theorem login_safety (hkeyed : Keyed collate users)
    (hr : Run (Step collate) { users := users } labels w)
    (hfollows : Follows hashing store calls labels) :
    (∀ pre post call result, labels = pre++.event call (.called (result, 200)) :: post →
      ∃ username password, calls call = some (username, password) ∧
        (VerifiedAtLookup hashing collate users pre call username password result.userId ∨
          InsertedByCall hashing collate users pre call username password result.userId)) ∧
    (∀ user ∈ w.users, ∀ user' ∈ w.users, user.username = user'.username → user = user') ∧
    (∀ pre label post w₁ w₂ user user', labels = pre++label :: post →
      Run (Step collate) { users := users } pre w₁ → Step collate w₁ label w₂ →
      user ∈ w₁.users → user' ∈ w₂.users → user'.id = user.id →
      user'.passwdHash ≠ user.passwdHash →
      UpgradedByCall hashing calls pre user.id user'.passwdHash) ∧
    ∀ call username password, calls call = some (username, password) →
      callCount (eventsOf call labels) ≤ 1 ∧
        ((AuthService.authenticate hashing store username password .call .done).Trace
          (eventsOf call labels) → callCount (eventsOf call labels) = 1) := by
  refine ⟨?_, ?_, ?_, ?_⟩
  · intro pre post call result heq
    obtain ⟨username, password, hcall, hearned⟩ := hfollows.allowed heq rfl
    obtain ⟨w₁, hpre, -⟩ := (heq ▸ hr : Run _ _ (pre++_ :: post) _).split
    exact ⟨username, password, hcall, earned_in_table hpre (hearned rfl)⟩
  · intro user hmem user' hmem' hname
    exact List.inj_on_of_nodup_map (hkeyed.run hr).names hmem hmem' (congrArg collate hname)
  · intro pre label post w₁ w₂ user user' heq hpre hstep hmem hmem' hid hhash
    subst heq
    exact upgraded_of_replaced hkeyed hfollows hpre hstep hmem hmem' hid hhash
  · intro call username password hcall
    have hcalls : (AuthService.authenticate hashing store username password .call .done).Calls 1 :=
      AuthService.authenticate_calls (n := 1) (fun value rest m hrest => hrest.call value)
        Task.calls_done store username password
    refine ⟨?_, hcalls _⟩
    apply hcalls.soFar
    have hsofar := hfollows call
    rw [hcall] at hsofar
    exact hsofar

end Logins

/-- The events of a call that makes a new account. -/
def registerEvents (username hash sessionToken salt random : Bytes) (userId id : ℕ) :
    List AuthEvent :=
  [.started (.findUser username), .completed (.findUser username) (none : Option User),
    .asked (.random 16) (some salt : Option Bytes), .started (.createUser username hash),
    .completed (.createUser username hash) userId,
    .asked (.random 32) (some random : Option Bytes), .started (.createSession userId sessionToken),
    .completed (.createSession userId sessionToken) id,
    .called ({ username := username, userId := userId, isNew := true,
               sessionToken := sessionToken }, 200)]

theorem register_trace {hashing : PasswordHashing} {username password salt random : Bytes}
    {userId id : ℕ} (hhash : AuthService.passwordHash hashing (some salt) password ≠ [])
    (htoken : AuthService.token (some random) ≠ []) (huser : userId ≠ 0) (hid : id ≠ 0) :
    (AuthService.authenticate hashing true username password .call .done).Trace
      (registerEvents username (AuthService.passwordHash hashing (some salt) password)
        (AuthService.token (some random)) salt random userId id) := by
  unfold registerEvents AuthService.authenticate
  rw [if_neg (by simp)]
  refine .start_last _ (.ask _ ?_)
  simp only
  rw [if_neg (by simpa using hhash)]
  refine .start_last _ ?_
  rw [if_neg huser]
  refine .ask _ ?_
  simp only
  rw [if_neg (by simpa using htoken)]
  refine .start_last _ ?_
  rw [if_pos hid]
  exact .call .done

def annSalt : Bytes := ascii "0123456789abcdef"

/-- The encoded hash of `pw` with this salt, for the parameters of the service. -/
def annHash : Bytes :=
  ascii "$argon2id$v=19$m=65536,t=3,p=1$MDEyMzQ1Njc4OWFiY2RlZg$"++
    ascii "Gs6vDcp/gVcHT06DjWRf+cpRnCdZDQMnY77kwsQjXjo"

/-- The hash functions at the one password and the one salt of the run. -/
def annHashing : PasswordHashing where
  argon2 salt password := if salt = annSalt ∧ password = ascii "pw" then some annHash else none
  argon2idVerify encoded password := encoded = annHash && password = ascii "pw"
  sha256 _ :=
    [0x30, 0xc9, 0x52, 0xfa, 0xb1, 0x22, 0xc3, 0xf9, 0x75, 0x9f, 0x02, 0xa6, 0xd9, 0x5c, 0x37, 0x58,
    0xb2, 0x46, 0xb4, 0xfe, 0xe2, 0x39, 0x95, 0x7b, 0x2d, 0x4f, 0xee, 0x46, 0xe2, 0x61, 0x70, 0xc4]
  argon2idVerify_iff := by
    intro encoded password
    simp only [Bool.and_eq_true, decide_eq_true_eq, Option.ite_none_right_eq_some,
      Option.some.injEq]
    constructor
    · rintro ⟨rfl, rfl⟩
      exact ⟨annSalt, ⟨rfl, rfl⟩, rfl⟩
    · rintro ⟨salt, ⟨-, rfl⟩, rfl⟩
      exact ⟨rfl, rfl⟩

/-- The random bytes of the session token. -/
def annRandom : Bytes := List.replicate 32 0xab

/-- A first login: the call looks the name up, adds the account and opens a session. -/
def firstLogin : List AuthLabel :=
  [.event 0 (.started (.findUser (ascii "ann"))),
    .carriedOut 0 (.findUser (ascii "ann")) (none : Option User),
    .event 0 (.completed (.findUser (ascii "ann")) (none : Option User)),
    .event 0 (.asked (.random 16) (some annSalt : Option Bytes)),
    .event 0 (.started (.createUser (ascii "ann") annHash)),
    .carriedOut 0 (.createUser (ascii "ann") annHash) (1 : ℕ),
    .event 0 (.completed (.createUser (ascii "ann") annHash) (1 : ℕ)),
    .event 0 (.asked (.random 32) (some annRandom : Option Bytes)),
    .event 0 (.started (.createSession 1 (AuthService.token (some annRandom)))),
    .carriedOut 0 (.createSession 1 (AuthService.token (some annRandom))) (9 : ℕ),
    .event 0 (.completed (.createSession 1 (AuthService.token (some annRandom))) (9 : ℕ)),
    .event 0 (.called ({ username := ascii "ann", userId := 1, isNew := true,
                         sessionToken := AuthService.token (some annRandom) }, 200))]

/-- The one call of the run. -/
def annLogin (call : ℕ) : Option (Bytes × Bytes) :=
  if call = 0 then some (ascii "ann", ascii "pw") else none

theorem firstLogin_events : eventsOf 0 firstLogin =
    registerEvents (ascii "ann") annHash (AuthService.token (some annRandom)) annSalt
      annRandom 1 9 := by
  rfl

theorem firstLogin_follows : Follows annHashing true annLogin firstLogin := by
  intro call
  by_cases hcall : call = 0
  · subst hcall
    refine ⟨[], ?_⟩
    rw [List.append_nil, firstLogin_events]
    exact register_trace (by decide) (by decide) (by decide) (by decide)
  · have hlogin : annLogin call = none := if_neg hcall
    have hne : 0 ≠ call := fun h => hcall h.symm
    rw [hlogin]
    simp [eventsOf, firstLogin, hne]

theorem firstLogin_safe :
    ∃ w, Run (Step (id : Bytes → Bytes)) { users := [] } firstLogin w ∧
      (VerifiedAtLookup annHashing (id : Bytes → Bytes) [] firstLogin.dropLast 0 (ascii "ann")
          (ascii "pw") 1 ∨
        InsertedByCall annHashing (id : Bytes → Bytes) [] firstLogin.dropLast 0 (ascii "ann")
          (ascii "pw") 1) ∧
      callCount (eventsOf 0 firstLogin) = 1 := by
  have hreplay : (Runs.replay (fun _ _ => True) (next (id : Bytes → Bytes)) { users := [] }
      firstLogin).isSome := by
    decide
  obtain ⟨w, hw⟩ := Option.isSome_iff_exists.mp hreplay
  have hr := (Runs.run_of_replay hw).unguarded
  have hkeyed : Keyed (id : Bytes → Bytes) [] := ⟨by simp, by simp⟩
  obtain ⟨hearned, -, -, honce⟩ := login_safety hkeyed hr firstLogin_follows
  obtain ⟨username, password, hcall, hreason⟩ := hearned firstLogin.dropLast [] 0 _ rfl
  obtain ⟨rfl, rfl⟩ := Prod.mk.inj (Option.some.inj hcall)
  have htrace : (AuthService.authenticate annHashing true (ascii "ann") (ascii "pw") .call
      .done).Trace (eventsOf 0 firstLogin) := by
    rw [firstLogin_events]
    exact register_trace (by decide) (by decide) (by decide) (by decide)
  exact ⟨w, hr, hreason, (honce 0 _ _ rfl).2 htrace⟩

end AuthWorld
end JingjieAR
