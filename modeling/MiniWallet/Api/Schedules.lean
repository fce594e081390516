import MiniWallet.Api.System

/-!
# Schedules of the API

Explicit runs of the API. The services of the wallet that the requests start are moved on by the
surroundings, with the hints of a schedule of the wallet.

* `ApiCue`, `apiPlayer`: what settles the open choices of a schedule.
* `demo`: a platform on which schedules can be played.
* `apiRun_of_played`: what a schedule ends in is reached by a run.
-/

namespace MiniWallet

open Numeric Process System

/-- What settles the open choices of a schedule of the API. -/
inductive ApiCue
  /-- The request that arrives. -/
  | request (call : HttpCall)
  /-- The hash of a password. -/
  | hash (hash : String)
  /-- The identifier of a user. -/
  | fresh (id : UUID)
  /-- The random token to hand out. -/
  | draw (random : String)
  /-- A move of a service of the wallet. -/
  | wallet (move : Move Hint)
  /-- Nothing fails. -/
  | auto

/-- The random token that a cue hands out. -/
def ApiCue.auth : ApiCue → AuthCue
  | draw random => .draw random
  | _ => .proceed

/-- The change of the surroundings that a move of the wallet makes. -/
def walletMove (P : Platform) (s : ApiState) (move : Move Hint) :
    Option { s' : ApiState // s.Env P s' } :=
  match h : playMove (player P.sha256) s.wallet move with
  | some (.call _ _ _, c) => some ⟨{ s with wallet := c }, .wallet (playMove_step h) (by rintro ⟨⟩)⟩
  | some (.stop _, c) => some ⟨{ s with wallet := c }, .wallet (playMove_step h) (by rintro ⟨⟩)⟩
  | some (.env, c) => some ⟨{ s with wallet := c }, .wallet (playMove_step h) (by rintro ⟨⟩)⟩
  | _ => none

/-- How an operation of a handler ends. -/
def answerTo (P : Platform) (cue : ApiCue) (s : ApiState) :
    (o : ApiOp) → Option { r : Except ApiExc o.Out // s.Ends P o r }
  | .receive _ => some ⟨.ok (), rfl⟩
  | .decode token => some ⟨.ok (P.decode token s.clock), rfl⟩
  -- an identifier that Postgres cannot read fails in the driver
  | .getUser userId =>
      match h : P.asUuid userId with
      | some id => some ⟨.ok (s.auth.users.find? (·.id = id)), .inl (by rw [h])⟩
      | none => some ⟨.error .dataError, .inl (by rw [h])⟩
  | .refreshUser id => some ⟨.ok (s.auth.users.find? (·.id = id)), .inl rfl⟩
  | .userByEmail email => some ⟨.ok (s.auth.users.find? (·.email = email)), .inl rfl⟩
  | .accountByUser userId => some ⟨.ok (s.db.accountByUser userId), .inl rfl⟩
  -- a hash is any that the platform accepts
  | .hashpw password =>
      match cue with
      | .hash hash =>
          if h : P.checkpw password hash = true then some ⟨.ok hash, .inl ⟨hash, h, rfl⟩⟩ else none
      | _ => none
  | .uuid4 =>
      match cue with
      | .fresh id => some ⟨.ok id, id, rfl⟩
      | _ => none
  | .insertUser user => some ⟨s.verdict user, .inl rfl⟩
  | .wallet o =>
      match h : reply .proceed s.wallet.size s.wallet.toWorld o with
      | some r => some ⟨.ok r, r, ⟨_, h⟩, rfl⟩
      | none => none
  | .auth o =>
      match (authPlayer P.checkpw P.encode).call cue.auth 0 o ⟨s.store, fun _ => {}, 0⟩ with
      | some r => some ⟨.ok r.1, r.1, r.2, rfl⟩
      | none => none
  | .call _ => some ⟨.ok s.wallet.size, rfl⟩
  -- a handler waits until the service has come to its end
  | .join i =>
      match h : (s.wallet.pool i).bind Prog.outcome? with
      | some out => some ⟨.ok out, out, h, rfl⟩
      | none => none
  | .respond _ => some ⟨.ok (), rfl⟩

/-- How the cues of a schedule choose among the steps of the API. -/
def apiPlayer (P : Platform) : (api P).Player ApiCue where
  spawn
    | .request call => some ⟨call.handle P, call, rfl⟩
    | _ => none
  call cue _ o w := answerTo P cue w.shared o
  env cue s :=
    match cue with
    | .wallet move => walletMove P s move
    | _ => none

/-- A schedule for the API. -/
abbrev ApiSchedule := List (Move ApiCue)

section Demo

variable (appEnv : String)

/-- A platform on which schedules can be played. Passwords are hashed by a prefix, and a token is
the text of its subject. It decodes tokens that were made at time `0`, for as long as these last. -/
def demo : Platform where
  sha256 := Sha256.hexdigest
  checkpw := fun password hash => hash = "hash of " ++ password
  encode := fun subject _ => subject
  decode := fun token at_ =>
    if at_ < minutes accessTokenExpireMinutes ∧ (UUID.parse token).isSome then some (some token)
    else none
  asUuid := UUID.parse
  emailStr := .ok
  appEnv := appEnv

/-- The API after the moves of a schedule. -/
def apiPlayed (ok : World ApiState ApiSession → ApiEvent → Prop) [∀ w l, Decidable (ok w l)]
    (ms : ApiSchedule) : Option Api :=
  play ok (apiPlayer (demo appEnv)) ((api (demo appEnv)).initial (.initial Sha256.hexdigest 0)) ms

/-- What a schedule of the API ends in is reached. -/
theorem apiRun_of_played (ok : World ApiState ApiSession → ApiEvent → Prop)
    [∀ w l, Decidable (ok w l)] {ms : ApiSchedule} {Q : Api → Prop} [DecidablePred Q]
    (h : (apiPlayed appEnv ok ms).any (fun c => decide (Q c)) = true) :
    ∃ c, ApiRun (demo appEnv) 0 ok c ∧ Q c := by
  obtain ⟨c, hc, hQ⟩ := (Option.any_eq_true _ _).mp h
  exact ⟨c, run_of_play hc, of_decide_eq_true hQ⟩

end Demo

/-- The next operations of process `i`, with their cues. -/
def calls (i : ℕ) (cues : List ApiCue) : ApiSchedule := cues.map (.call i)

/-- The next `n` operations of process `i`, none of which fails. -/
def autos (i n : ℕ) : ApiSchedule := calls i (List.replicate n .auto)

/-- The next `n` operations of process `i` of the wallet. -/
def serving (i n : ℕ) : ApiSchedule := (steps i n).map fun move => .env (.wallet move)

/-- Process `i` handles a registration. -/
def registering (i : ℕ) (email password : String) (id : UUID) : ApiSchedule :=
  [.spawn (.request (.register ⟨email, password⟩))] ++
    calls i [.auto, .hash ("hash of " ++ password), .fresh id, .auto, .auto, .auto]

/-- Process `i` handles a login. -/
def loggingIn (i : ℕ) (email password random : String) : ApiSchedule :=
  [.spawn (.request (.login ⟨email, password⟩))] ++
    calls i [.auto, .auto, .auto, .draw random, .auto, .auto]

/-- Process `i` handles a request for an account, which process `j` of the wallet opens. -/
def opening (i j : ℕ) (userId : UUID) : ApiSchedule :=
  [.spawn (.request (.openAccount (some userId.str)))] ++ autos i 4 ++ serving j 9 ++ autos i 3

/-- Process `i` handles a seed, which process `j` of the wallet credits. -/
def seeding (i j : ℕ) (userId account : UUID) (amount : String) : ApiSchedule :=
  [.spawn (.request (.seed (some userId.str) (some "seed") ⟨account.str, amount⟩))] ++ autos i 4 ++
    serving j 13 ++ autos i 2

/-- Process `i` handles a transfer to an address, which process `j` of the wallet makes. -/
def transferring (i j : ℕ) (userId : UUID) (email amount : String) : ApiSchedule :=
  [.spawn (.request (.createTransfer (some userId.str) (some "transfer")
    { toEmail := some email, amount := amount }))] ++ autos i 7 ++ serving j 18 ++ autos i 2

/-- Process `i` handles a request for a transfer, which process `j` of the wallet looks up. -/
def lookingUp (i j : ℕ) (userId transferId : UUID) : ApiSchedule :=
  [.spawn (.request (.getTransfer (some userId.str) transferId.str))] ++ autos i 5 ++ serving j 1 ++
    autos i 2

/-- A user registers, logs in and opens an account, which gets the identifier `1`. -/
def joined : ApiSchedule :=
  registering 0 "alice@example.com" "password1" ⟨1000⟩ ++
    loggingIn 1 "alice@example.com" "password1" "a" ++ opening 2 0 ⟨1000⟩

/-- The account is seeded, and money is transferred to the account `9` of another user. -/
def paid : ApiSchedule :=
  joined ++ seeding 3 1 ⟨1000⟩ ⟨1⟩ "100" ++
    registering 4 "bob@example.com" "password2" ⟨1001⟩ ++
    loggingIn 5 "bob@example.com" "password2" "b" ++ opening 6 2 ⟨1001⟩ ++
    transferring 7 3 ⟨1000⟩ "bob@example.com" "40"

end MiniWallet
