import JingjieAR.AuthMiddlewareModel
import JingjieAR.CallbackTasks
import JingjieAR.StaticFileModel
import JingjieAR.TransitionRuns

/-! `AuthService::authenticate` with its callbacks, and the table of the users that any number
of such calls work on. A command that was started is carried out at some time or never; its
caller may be told that it has failed in either case. -/
namespace JingjieAR

open Callbacks (Task Callback Event)
open JsonUtil (lowerHexDigit)

/-- Argon2 and SHA-256 as the libraries have them. What `argon2id_verify` accepts for a password
is exactly what `argon2_hash` makes of it, with some salt (and the parameters with it). -/
structure PasswordHashing where
  argon2 : Bytes → Bytes → Option Bytes
  argon2idVerify : Bytes → Bytes → Bool
  sha256 : Bytes → Bytes
  argon2idVerify_iff : ∀ encoded password,
    argon2idVerify encoded password = true ↔ ∃ salt, argon2 salt password = some encoded

structure User where
  id : ℕ
  username : Bytes
  passwdHash : Bytes
deriving DecidableEq

structure AuthResult where
  username : Bytes := []
  userId : ℕ := 0
  sessionToken : Bytes := []
  isNew : Bool := false
deriving DecidableEq

inductive AuthOp
  -- `secureRandom`
  | random (length : ℕ)
  -- `AuthStore`
  | findUser (username : Bytes)
  | createUser (username hash : Bytes)
  | updatePasswordHash (userId : ℕ) (hash : Bytes)
  | createSession (userId : ℕ) (token : Bytes)
deriving DecidableEq

def AuthOp.Reply : AuthOp → Type
  | .random _ => Option Bytes
  | .findUser _ => Option User
  | .createUser _ _ => ℕ
  | .updatePasswordHash _ _ => Bool
  | .createSession _ _ => ℕ

instance (op : AuthOp) : DecidableEq op.Reply :=
  match op with
  | .random _ => inferInstanceAs (DecidableEq (Option Bytes))
  | .findUser _ => inferInstanceAs (DecidableEq (Option User))
  | .createUser _ _ => inferInstanceAs (DecidableEq ℕ)
  | .updatePasswordHash _ _ => inferInstanceAs (DecidableEq Bool)
  | .createSession _ _ => inferInstanceAs (DecidableEq ℕ)

/-- What a caller is told when a command has failed. -/
def AuthOp.failure : (op : AuthOp) → op.Reply
  | .random _ => (none : Option Bytes)
  | .findUser _ => (none : Option User)
  | .createUser _ _ => (0 : ℕ)
  | .updatePasswordHash _ _ => false
  | .createSession _ _ => (0 : ℕ)

abbrev AuthEvent := Event AuthOp AuthOp.Reply (AuthResult × ℕ)

abbrev AuthTask := Task AuthOp AuthOp.Reply (AuthResult × ℕ)

abbrev Completion := Callback AuthOp AuthOp.Reply (AuthResult × ℕ) (AuthResult × ℕ)

namespace AuthService

/-- Two digits of `std::hex` for each byte. -/
def hexDigits (bytes : Bytes) : Bytes :=
  bytes.flatMap (fun b => [lowerHexDigit (b.toNat/16), lowerHexDigit (b.toNat%16)])

/-- Empty when there was no randomness. -/
def token (random : Option Bytes) : Bytes :=
  match random with
  | none => []
  | some bytes => hexDigits bytes

section

variable (hashing : PasswordHashing)

def passwordHash (salt : Option Bytes) (password : Bytes) : Bytes :=
  match salt with
  | none => []
  | some salt => (hashing.argon2 salt password).getD []

def legacyPasswordHash (password : Bytes) : Bytes :=
  ascii "sha256:"++hexDigits (hashing.sha256 password)

/-- Whether the password matches, and `needsUpgrade`. -/
def verifyPassword (password storedHash : Bytes) : Bool × Bool :=
  if storedHash.take 10 = ascii "$argon2id$" then
    (hashing.argon2idVerify (cString storedHash) password, false)
  else if storedHash.take 7 ≠ ascii "sha256:" then (false, false)
  else
    let candidate := legacyPasswordHash hashing password
    let isMatch := candidate.length == storedHash.length && candidate == storedHash
    (isMatch, isMatch)

def createSession (userId : ℕ) (username : Bytes) (isNew : Bool) (completion : Completion)
    (rest : AuthTask) : AuthTask :=
  .ask (.random 32) fun random =>
    let sessionToken := token random
    if sessionToken == [] then completion ({}, 503) rest
    else
      .start (.createSession userId sessionToken)
        (fun id : ℕ =>
          if id ≠ 0 then
            completion ({ username := username, userId := userId, isNew := isNew,
                          sessionToken := sessionToken }, 200) .done
          else completion ({}, 503) .done)
        rest

/-- `store` tells whether `store_` is set. -/
def authenticate (store : Bool) (username password : Bytes) (completion : Completion)
    (rest : AuthTask) : AuthTask :=
  if !store then completion ({}, 503) rest
  else
    .start (.findUser username)
      (fun user : Option User =>
        match user with
        | some user =>
          let verified := verifyPassword hashing password user.passwdHash
          if !verified.1 then completion ({}, 401) .done
          else if verified.2 then
            .ask (.random 16) fun salt =>
              let upgradedHash := passwordHash hashing salt password
              if upgradedHash == [] then completion ({}, 503) .done
              else
                .start (.updatePasswordHash user.id upgradedHash)
                  (fun updated : Bool =>
                    if !updated then completion ({}, 503) .done
                    else createSession user.id user.username false completion .done)
                  .done
          else createSession user.id user.username false completion .done
        | none =>
          .ask (.random 16) fun salt =>
            let hashedPassword := passwordHash hashing salt password
            if hashedPassword == [] then completion ({}, 503) .done
            else
              .start (.createUser username hashedPassword)
                (fun userId : ℕ =>
                  if userId = 0 then completion ({}, 503) .done
                  else createSession userId username true completion .done)
                .done)
      rest

end

end AuthService

/-- The table, the commands that may still be carried out, and the answers of those that were. -/
structure AuthWorld where
  users : List User
  inFlight : List (ℕ × AuthOp) := []
  results : List (ℕ × ((op : AuthOp) × op.Reply)) := []
deriving DecidableEq

/-- A step of the call with this number, or the execution of one of its commands. -/
inductive AuthLabel
  | event (call : ℕ) (e : AuthEvent)
  | carriedOut (call : ℕ) (op : AuthOp) (reply : op.Reply)

namespace AuthWorld

variable {κ : Type*} [DecidableEq κ]

/-- A row as `findUserByUsername` copies it. -/
def read (user : User) : User :=
  { user with username := cString user.username, passwdHash := cString user.passwdHash }

variable (collate : Bytes → κ)

/-- Whether the names are equal to the column's collation. -/
def named (username : Bytes) (user : User) : Bool := collate user.username = collate username

def findUser (users : List User) (username : Bytes) : Option User :=
  (users.find? (named collate username)).map read

/-- The insertion under this id; 0 is the answer when the name is taken. -/
def createUser (users : List User) (username hash : Bytes) (newId : ℕ) : Option (List User) :=
  if users.any (named collate username) then if newId = 0 then some users else none
  else if newId ≠ 0 && users.all (fun user => user.id ≠ newId) then
    some (users++[{ id := newId, username := username, passwdHash := hash }])
  else none

def updatePasswordHash (users : List User) (userId : ℕ) (hash : Bytes) : List User :=
  users.map fun user => if user.id = userId then { user with passwdHash := hash } else user

/-- `mysql_stmt_affected_rows` counts the rows that have changed. -/
def affected (users : List User) (userId : ℕ) (hash : Bytes) : Bool :=
  users.any (fun user => user.id = userId && user.passwdHash ≠ hash)

/-- What a command does to the table, if it can answer so. -/
def carryOut (users : List User) : (op : AuthOp) → op.Reply → Option (List User)
  | .random _, _ => none
  | .findUser username, (found : Option User) =>
      if found = findUser collate users username then some users else none
  | .createUser username hash, (newId : ℕ) => createUser collate users username hash newId
  | .updatePasswordHash userId hash, (updated : Bool) =>
      if updated = affected users userId hash then some (updatePasswordHash users userId hash)
      else none
  | .createSession _ _, _ => some users

def next (w : AuthWorld) : AuthLabel → Option AuthWorld
  | .event call (.started op) => some { w with inFlight := (call, op) :: w.inFlight }
  | .event call (.completed op reply) =>
      if (call, ⟨op, reply⟩) ∈ w.results ∨ reply = op.failure then some w else none
  | .event _ _ => some w
  | .carriedOut call op reply =>
      if (call, op) ∈ w.inFlight then
        (carryOut collate w.users op reply).map fun users =>
          { users := users, inFlight := w.inFlight.erase (call, op),
            results := (call, ⟨op, reply⟩) :: w.results }
      else none

def Step (w : AuthWorld) (label : AuthLabel) (w' : AuthWorld) : Prop :=
  w.next collate label = some w'

/-- What the call with this number has done. -/
def eventsOf (call : ℕ) (labels : List AuthLabel) : List AuthEvent :=
  labels.filterMap fun label =>
    match label with
    | .event i e => if i = call then some e else none
    | .carriedOut _ _ _ => none

end AuthWorld

end JingjieAR
