import Mathlib.Logic.Function.Basic
import MiniWallet.Process.Interleaving
import MiniWallet.Schema.Values

/-!
# Auth service

Logging in stores a refresh token in Redis, under a key of its own and with a lifetime. Refreshing
exchanges a token for a new one: it reads the key, deletes it and stores the new key, and each of
the three is a Redis command of its own. Between two of them any other request can run.

* `login`, `refreshToken`: the coroutines.
* `auth`: the system of all logins and refreshes.
-/

namespace MiniWallet

open Process

/-- A row of `users`. -/
structure User where
  id : UUID
  email : String
  hashedPassword : String
deriving DecidableEq, Repr

/-- The response of a login and of a refresh. -/
structure TokenResponse where
  accessToken : String
  refreshToken : String
  tokenType : String
  expiresIn : ℤ
deriving DecidableEq, Repr

/-- `settings.refresh_token_expire_days`. -/
def refreshTokenExpireDays : ℤ := 7

/-- `settings.access_token_expire_minutes`. -/
def accessTokenExpireMinutes : ℤ := 15

/-- The Redis key of a refresh token. -/
def refreshKey (token : String) : String := "refresh:" ++ token

/-- Different tokens have different keys. -/
theorem refreshKey_injective : Function.Injective refreshKey := by
  intro t t' h
  have hlist := congrArg String.toList h
  simp only [refreshKey, String.toList_append, List.append_cancel_left_eq] at hlist
  exact String.toList_injective hlist

/-- The exceptions of the auth service. -/
inductive AuthExc
  | invalidCredentials
  | invalidRefreshToken
  | redisError
  | operationalError
deriving DecidableEq, Repr

/-- What the auth service awaits. -/
inductive AuthOp
  /-- `datetime.now(timezone.utc)`. -/
  | now
  /-- `secrets.token_urlsafe(32)`. -/
  | tokenUrlsafe
  /-- `SELECT … FROM users WHERE email = …`. -/
  | selectUser (email : String)
  /-- `GET`. -/
  | get (key : String)
  /-- `DEL`. -/
  | delete (key : String)
  /-- `SETEX`, with a lifetime in seconds. -/
  | setex (key : String) (ttl : ℤ) (value : String)
deriving DecidableEq, Repr

/-- The type of the value that an operation returns. -/
def AuthOp.Out : AuthOp → Type
  | now => Time
  | tokenUrlsafe => String
  | selectUser _ => Option User
  | get _ => Option String
  | delete _ => ℕ
  | setex _ _ _ => Unit

/-- A coroutine of the auth service. -/
abbrev AuthProgram (α : Type) : Type := Prog AuthOp AuthOp.Out AuthExc α

/-! ## The coroutines -/

namespace AuthProgram

/-- Await an operation. -/
abbrev perform (o : AuthOp) : AuthProgram o.Out := Prog.perform o

/-- `datetime.now`. -/
def now : AuthProgram Time := perform .now

/-- `secrets.token_urlsafe`. -/
def tokenUrlsafe : AuthProgram String := perform .tokenUrlsafe

/-- The user with an address. -/
def selectUser (email : String) : AuthProgram (Option User) := perform (.selectUser email)

/-- `GET` in Redis. -/
def get (key : String) : AuthProgram (Option String) := perform (.get key)

/-- `DEL` in Redis. -/
def delete (key : String) : AuthProgram ℕ := perform (.delete key)

/-- `SETEX` in Redis. -/
def setex (key : String) (ttl : ℤ) (value : String) : AuthProgram Unit :=
  perform (.setex key ttl value)

end AuthProgram

open AuthProgram

section Coroutines

variable (checkpw : String → String → Bool) (encode : String → Time → String)

/-- `_create_access_token`. The token is encoded from the subject and the time of expiry. -/
def createAccessToken (userId : String) : AuthProgram String := do
  let at_ ← now
  pure (encode userId (at_ + minutes accessTokenExpireMinutes))

/-- Log in with a password. -/
def login (email password : String) : AuthProgram TokenResponse := do
  match ← selectUser email with
  | none => throw .invalidCredentials
  | some user =>
      if checkpw password user.hashedPassword then
        let accessToken ← createAccessToken encode user.id.str
        let token ← tokenUrlsafe
        let ttl := refreshTokenExpireDays * 86400
        setex (refreshKey token) ttl user.id.str
        pure
          { accessToken := accessToken
            refreshToken := token
            tokenType := "bearer"
            expiresIn := accessTokenExpireMinutes * 60 }
      else throw .invalidCredentials

/-- Exchange a refresh token for a new one. -/
def refreshToken (oldToken : String) : AuthProgram TokenResponse := do
  match ← get (refreshKey oldToken) with
  | none => throw .invalidRefreshToken
  | some userId =>
      -- a command of its own: the key may be gone by now, and its reply is not looked at
      let _ ← delete (refreshKey oldToken)
      let newAccess ← createAccessToken encode userId
      let newRefresh ← tokenUrlsafe
      let ttl := refreshTokenExpireDays * 86400
      setex (refreshKey newRefresh) ttl userId
      pure
        { accessToken := newAccess
          refreshToken := newRefresh
          tokenType := "bearer"
          expiresIn := accessTokenExpireMinutes * 60 }

end Coroutines

/-! ## The system -/

/-- What the requests share. -/
structure AuthStore where
  users : List User := []
  /-- The refresh tokens in Redis, by key: the value, and the instant at which the key expires. -/
  tokens : String → Option (String × Time) := fun _ => none
  clock : Time := 0
  /-- The random tokens that have been handed out. -/
  issued : List String := []
  /-- The refresh tokens that have been stored, by key: the token that was exchanged for it, if it
  was not stored by a login, and the token itself. -/
  granted : List (Option String × String) := []

namespace AuthStore

variable (s : AuthStore)

/-- The value of a key that has not expired. -/
def lookup (key : String) : Option String :=
  match s.tokens key with
  | some (value, expiry) => if s.clock < expiry then some value else none
  | none => none

/-- The number of keys that `DEL` removes. -/
def count (key : String) : ℕ := if (s.lookup key).isSome then 1 else 0

/-- The refresh tokens that have been exchanged for another one, by key. -/
def exchanged : List String := s.granted.filterMap Prod.fst

/-- All refresh tokens that have ever been stored, by key. -/
def stored : List String := s.granted.map Prod.snd

end AuthStore

/-- What a request has done so far. -/
structure AuthSession where
  /-- The key that it has found. -/
  found : Option String := none
  /-- It has deleted the key. -/
  deleted : Bool := false
  /-- The random token that it has drawn. -/
  drawn : Option String := none
deriving DecidableEq, Repr

/-- The results of an operation. A random token has never been handed out before. -/
def AuthStore.Ends (s : AuthStore) : (o : AuthOp) → Except AuthExc o.Out → Prop
  | .now, r => r = .ok s.clock
  | .tokenUrlsafe, r => ∃ token, token ∉ s.issued ∧ r = .ok token
  | .selectUser email, r => r = .ok (s.users.find? (·.email = email)) ∨ r = .error .operationalError
  | .get key, r => r = .ok (s.lookup key) ∨ r = .error .redisError
  | .delete key, r => r = .ok (s.count key) ∨ r = .error .redisError
  | .setex _ _ _, r => r = .ok () ∨ r = .error .redisError

/-- What the request has done after an operation. -/
def AuthSession.after : (o : AuthOp) → Except AuthExc o.Out → AuthSession → AuthSession
  | .tokenUrlsafe, .ok token, σ => { σ with drawn := some token }
  | .get key, .ok (some _), σ => { σ with found := some key }
  | .delete _, .ok _, σ => { σ with deleted := true }
  | .delete _, .error _, _ | .setex _ _ _, _, _ => {}
  | _, _, σ => σ

/-- What the requests share after an operation. A command that fails has no effect. -/
def AuthStore.effect : (o : AuthOp) → Except AuthExc o.Out → AuthSession → AuthStore → AuthStore
  | .tokenUrlsafe, .ok token, _, s => { s with issued := token :: s.issued }
  | .delete key, .ok _, _, s => { s with tokens := Function.update s.tokens key none }
  | .setex key ttl value, .ok _, σ, s =>
      { s with
        tokens := Function.update s.tokens key (some (value, s.clock + ttl * 1000000))
        granted := (σ.found, key) :: s.granted }
  | _, _, _, s => s

/-- What happens by itself: time passes, users register, and keys expire or are evicted. -/
def AuthStore.env (s s' : AuthStore) : Prop :=
  ∃ users tokens clock, s' = { s with users := users, tokens := tokens, clock := clock } ∧
    s.clock ≤ clock ∧ ∀ key, tokens key = s.tokens key ∨ tokens key = none

/-- The logins and refreshes, each a process of its own. -/
def auth (checkpw : String → String → Bool) (encode : String → Time → String) :
    System AuthOp AuthOp.Out AuthExc TokenResponse AuthStore AuthSession where
  idle := {}
  enabled := fun _ o r w => w.shared.Ends o r
  after := AuthSession.after
  effect := AuthStore.effect
  env := AuthStore.env
  start := fun p => (∃ email password, p = login checkpw encode email password) ∨
    ∃ token, p = refreshToken encode token

/-- A configuration of the auth service. -/
abbrev Requests := Config AuthOp AuthOp.Out AuthExc TokenResponse AuthStore AuthSession

/-- What happens in a step of a request. -/
abbrev AuthEvent := Label AuthOp AuthOp.Out AuthExc

/-! ## What a request sends to Redis -/

/-- A request looks for one key only, deletes a key that it has found, and stores a key of its own
drawing, in exchange for one that it has deleted if it has found one. -/
def rotation : Contract AuthOp AuthOp.Out AuthExc AuthSession where
  guard
    | .get _, σ => σ = {}
    | .delete key, σ => σ = { found := some key }
    | .setex key _ _, σ => (∃ token, σ.drawn = some token ∧ key = refreshKey token) ∧
        (σ.found ≠ none → σ.deleted = true)
    | _, _ => True
  possible := fun _ _ _ => True

section Rotation

variable {checkpw : String → String → Bool} {encode : String → Time → String}

/-- The access token is made without touching Redis. -/
theorem rotation_createAccessToken {userId : String} {σ : AuthSession}
    {Q : String → AuthSession → Prop} (h : ∀ token, Q token σ) :
    rotation.wp AuthSession.after (createAccessToken encode userId) Q (fun _ _ => True) σ := by
  rw [createAccessToken, Contract.wp_bind]
  exact (Contract.wp_perform _ _ AuthOp.now).mpr
    ⟨trivial, fun _ _ => (Contract.wp_pure _ _ _).mpr (h _), fun _ _ => trivial⟩

/-- Storing a fresh token keeps to the contract. -/
theorem rotation_store {σ : AuthSession} (h : σ.found ≠ none → σ.deleted = true) {value : String}
    {ttl : ℤ} {f : String → TokenResponse} :
    rotation.wp AuthSession.after
      (do
        let token ← tokenUrlsafe
        setex (refreshKey token) ttl value
        pure (f token)) (fun _ _ => True) (fun _ _ => True) σ := by
  rw [Contract.wp_bind]
  refine (Contract.wp_perform _ _ AuthOp.tokenUrlsafe).mpr
    ⟨trivial, fun token _ => ?_, fun _ _ => trivial⟩
  rw [Contract.wp_bind]
  exact (Contract.wp_perform _ _ (AuthOp.setex _ _ _)).mpr
    ⟨⟨⟨token, rfl, rfl⟩, h⟩, fun _ _ => (Contract.wp_pure _ _ _).mpr trivial, fun _ _ => trivial⟩

/-- A login keeps to the contract. -/
theorem rotation_login (email password : String) :
    rotation.Safe AuthSession.after (login checkpw encode email password) {} := by
  unfold Contract.Safe
  rw [login, Contract.wp_bind]
  refine (Contract.wp_perform _ _ (AuthOp.selectUser _)).mpr
    ⟨trivial, fun user _ => ?_, fun _ _ => trivial⟩
  cases user with
  | none => exact (Contract.wp_throw _ _ _).mpr trivial
  | some user =>
      dsimp only
      split
      · rw [Contract.wp_bind]
        exact rotation_createAccessToken fun _ => rotation_store fun hfound => absurd rfl hfound
      · exact (Contract.wp_throw _ _ _).mpr trivial

/-- A refresh keeps to the contract. -/
theorem rotation_refreshToken (oldToken : String) :
    rotation.Safe AuthSession.after (refreshToken encode oldToken) {} := by
  unfold Contract.Safe
  rw [refreshToken, Contract.wp_bind]
  refine (Contract.wp_perform _ _ (AuthOp.get _)).mpr ⟨rfl, fun userId _ => ?_, fun _ _ => trivial⟩
  cases userId with
  | none => exact (Contract.wp_throw _ _ _).mpr trivial
  | some userId =>
      dsimp only
      rw [Contract.wp_bind]
      refine (Contract.wp_perform _ _ (AuthOp.delete _)).mpr
        ⟨rfl, fun _ _ => ?_, fun _ _ => trivial⟩
      rw [Contract.wp_bind]
      exact rotation_createAccessToken fun _ => rotation_store fun _ => rfl

/-- Every request keeps to the contract. -/
theorem rotation_abides (checkpw : String → String → Bool) (encode : String → Time → String)
    (s : AuthStore) : (auth checkpw encode).Abides rotation s where
  possible := fun _ _ => trivial
  safe := by
    rintro p (⟨email, password, rfl⟩ | ⟨token, rfl⟩)
    · exact rotation_login email password
    · exact rotation_refreshToken token

end Rotation

/-! ## Explicit schedules -/

/-- What settles the open choices of a schedule of requests. -/
inductive AuthCue
  | login (email password : String)
  | refresh (token : String)
  /-- The random token to hand out. -/
  | draw (random : String)
  /-- Nothing fails. -/
  | proceed

/-- How the cues of a schedule choose among the steps of the requests. -/
def authPlayer (checkpw : String → String → Bool) (encode : String → Time → String) :
    (auth checkpw encode).Player AuthCue where
  spawn
    | .login email password => some ⟨login checkpw encode email password, .inl ⟨_, _, rfl⟩⟩
    | .refresh token => some ⟨refreshToken encode token, .inr ⟨_, rfl⟩⟩
    | _ => none
  call cue _ o w :=
    match o with
    | .now => some ⟨.ok w.shared.clock, rfl⟩
    | .tokenUrlsafe =>
        match cue with
        | .draw random =>
            if h : random ∉ w.shared.issued then some ⟨.ok random, random, h, rfl⟩ else none
        | _ => none
    | .selectUser email => some ⟨.ok (w.shared.users.find? (·.email = email)), .inl rfl⟩
    | .get key => some ⟨.ok (w.shared.lookup key), .inl rfl⟩
    | .delete key => some ⟨.ok (w.shared.count key), .inl rfl⟩
    | .setex _ _ _ => some ⟨.ok (), .inl rfl⟩
  env := fun _ _ => none

end MiniWallet
