import Mathlib.Logic.Relation
import MiniWallet.Services.Auth

/-!
# Rotation of refresh tokens

A refresh finds its token by one Redis command and deletes it by another one. As long as no other
request finds the token in between, every token is exchanged at most once, and at most one of the
tokens that descend from a login is alive.

* `ReadsAlone`: the condition on steps, that a request does not find a token which another request
  has found and not yet deleted.
* `Sound`: the invariant. A token that is found or deleted is in the custody of one request, and has
  not been exchanged.
* `refresh_single_use`: the result.
* `refresh_twice`: two requests find the same token, and both exchange it.
-/

namespace MiniWallet

open Process

variable {checkpw : String → String → Bool} {encode : String → Time → String} {s₀ : AuthStore}

/-! ## The property -/

namespace AuthStore

variable (s : AuthStore)

/-- The token was exchanged for another one. -/
def Rotates (token token' : String) : Prop := (some token, token') ∈ s.granted

/-- The token was stored by a login. -/
def FromLogin (token : String) : Prop := (none, token) ∈ s.granted

/-- The token can be exchanged. -/
def Live (token : String) : Prop := (s.lookup token).isSome = true

/-- Every token was exchanged at most once, and at most one descendant of a login is alive. -/
def SingleUse : Prop :=
  s.exchanged.Nodup ∧ ∀ root token token', s.FromLogin root →
    Relation.ReflTransGen s.Rotates root token → Relation.ReflTransGen s.Rotates root token' →
    s.Live token → s.Live token' → token = token'

/-- The state before the first request. -/
structure Started : Prop where
  tokens : ∀ key, s.tokens key = none
  granted : s.granted = []

end AuthStore

/-- The condition on steps: a request does not find a token that another request has found and not
yet deleted. -/
def ReadsAlone (w : World AuthStore AuthSession) : AuthEvent → Prop
  | .call i (.get key) (.ok (some _)) =>
      ∀ j < w.size, j ≠ i → (w.sess j).found = some key → (w.sess j).deleted = true
  | _ => True

/-! ## The invariant -/

/-- The tokens in Redis have been stored and have not been exchanged. -/
structure AuthStore.Sound (s : AuthStore) : Prop where
  once : s.exchanged.Nodup
  gone : ∀ token ∈ s.exchanged, s.tokens token = none
  known : ∀ token ∈ s.exchanged, token ∈ s.stored
  stored : ∀ token, s.tokens token ≠ none → token ∈ s.stored
  keys : ∀ token ∈ s.stored, ∃ random ∈ s.issued, token = refreshKey random
  distinct : s.stored.Nodup

/-- What a request has found or drawn. -/
structure AuthSession.Sound (s : AuthStore) (σ : AuthSession) : Prop where
  /-- The token that it has found was not exchanged. -/
  unused : ∀ token ∈ σ.found, token ∉ s.exchanged
  known : ∀ token ∈ σ.found, token ∈ s.stored
  /-- The token that it has deleted is gone. -/
  gone : ∀ token ∈ σ.found, σ.deleted = true → s.tokens token = none
  /-- The token that it has drawn was not stored. -/
  fresh : ∀ random ∈ σ.drawn, random ∈ s.issued ∧ refreshKey random ∉ s.stored

/-- Two requests have not found the same token, and have not drawn the same one. -/
structure AuthSession.Apart (σ σ' : AuthSession) : Prop where
  found : ∀ token ∈ σ.found, token ∉ σ'.found
  drawn : ∀ random ∈ σ.drawn, random ∉ σ'.drawn

/-- The invariant of the auth service. -/
structure Sound (w : World AuthStore AuthSession) : Prop where
  store : w.shared.Sound
  sess : ∀ i, (w.sess i).Sound w.shared
  apart : ∀ i j, i ≠ j → (w.sess i).Apart (w.sess j)

/-- It does not matter in which order two sessions are compared. -/
theorem AuthSession.Apart.symm {σ σ' : AuthSession} (h : σ.Apart σ') : σ'.Apart σ where
  found := fun token ht ht' => h.found token ht' ht
  drawn := fun random hr hr' => h.drawn random hr' hr

/-- A request that has not done anything is sound. -/
theorem AuthSession.sound_idle (s : AuthStore) : AuthSession.Sound s {} where
  unused := fun _ h => nomatch h
  known := fun _ h => nomatch h
  gone := fun _ h => nomatch h
  fresh := fun _ h => nomatch h

/-- A session that has read nothing is apart from every other one. -/
theorem AuthSession.apart_idle (σ : AuthSession) : AuthSession.Apart {} σ where
  found := fun _ h => nomatch h
  drawn := fun _ h => nomatch h

namespace Sound

variable {w : World AuthStore AuthSession}

/-- Request `i` takes a step: it is enough to look at its own session, and at what the new state
means for the others. -/
theorem update (h : Sound w) (i : ℕ) {s' : AuthStore} {σ' : AuthSession} (hstore : s'.Sound)
    (hown : σ'.Sound s') (hothers : ∀ j, j ≠ i → (w.sess j).Sound s')
    (hapart : ∀ j, j ≠ i → σ'.Apart (w.sess j)) :
    Sound { shared := s', sess := Function.update w.sess i σ', size := w.size } where
  store := hstore
  sess := by
    -- the other sessions stay as they are
    intro j
    by_cases hj : j = i
    · subst hj
      simpa using hown
    · simpa [hj] using hothers j hj
  apart := by
    -- two sessions, of which at most one is that of the request
    intro j k hjk
    by_cases hj : j = i
    · subst hj
      simpa [hjk.symm] using hapart k hjk.symm
    · by_cases hk : k = i
      · subst hk
        simpa [hj] using (hapart j hj).symm
      · simpa [hj, hk] using h.apart j k hjk

/-- A step that leaves the store alone and after which the request has found and drawn nothing
new. -/
theorem keep (h : Sound w) (i : ℕ) {σ' : AuthSession} (hown : σ'.Sound w.shared)
    (hapart : ∀ j, j ≠ i → σ'.Apart (w.sess j)) :
    Sound { shared := w.shared, sess := Function.update w.sess i σ', size := w.size } :=
  h.update i h.store hown (fun j _ => h.sess j) hapart

/-- A request that starts over. -/
theorem reset (h : Sound w) (i : ℕ) :
    Sound { shared := w.shared, sess := Function.update w.sess i {}, size := w.size } :=
  h.keep i (AuthSession.sound_idle _) fun _ _ => AuthSession.apart_idle _

/-- A random token is drawn. -/
theorem draw (h : Sound w) (i : ℕ) {random : String} (hfresh : random ∉ w.shared.issued) :
    Sound { shared := { w.shared with issued := random :: w.shared.issued }
            sess := Function.update w.sess i { w.sess i with drawn := some random }
            size := w.size } := by
  -- the key of a fresh token is not stored
  have hunstored : refreshKey random ∉ w.shared.stored := by
    intro hstored
    obtain ⟨random', hissued, hkey⟩ := h.store.keys _ hstored
    rw [refreshKey_injective hkey] at hfresh
    exact hfresh hissued
  refine h.update i ?_ ?_ (fun j _ => ?_) fun j hj => ?_
  · refine { h.store with keys := fun token ht => ?_ }
    obtain ⟨random', hissued, hkey⟩ := h.store.keys token ht
    exact ⟨random', List.mem_cons_of_mem _ hissued, hkey⟩
  · -- the own session holds the fresh token
    refine { h.sess i with fresh := fun random' hr => ?_ }
    cases hr
    exact ⟨List.mem_cons_self, hunstored⟩
  · refine { h.sess j with fresh := fun random' hr => ?_ }
    exact ⟨List.mem_cons_of_mem _ ((h.sess j).fresh random' hr).1, ((h.sess j).fresh random' hr).2⟩
  · -- no other session can hold it
    refine { h.apart i j hj.symm with drawn := fun random' hr hr' => ?_ }
    cases hr
    exact hfresh ((h.sess j).fresh _ hr').1

/-- A request finds a token that nobody else has found, unless he has deleted it. -/
theorem find (h : Sound w) (i : ℕ) {key : String} (hidle : w.sess i = {})
    (hlive : w.shared.tokens key ≠ none)
    (halone : ∀ j, j ≠ i → (w.sess j).found = some key → (w.sess j).deleted = true) :
    Sound { shared := w.shared
            sess := Function.update w.sess i { w.sess i with found := some key }
            size := w.size } := by
  refine h.keep i ?_ fun j hj => ?_
  · refine ⟨fun token ht => ?_, fun token ht => ?_, fun token ht hdeleted => ?_, (h.sess i).fresh⟩
    · cases ht
      exact fun hexchanged => hlive (h.store.gone key hexchanged)
    · cases ht
      exact h.store.stored key hlive
    · rw [hidle] at hdeleted
      cases hdeleted
  · refine { h.apart i j hj.symm with found := fun token ht ht' => ?_ }
    cases ht
    exact hlive ((h.sess j).gone key ht' (halone j hj ht'))

/-- A request deletes the token that it has found. -/
theorem delete (h : Sound w) (i : ℕ) {key : String} (hfound : w.sess i = { found := some key }) :
    Sound { shared := { w.shared with tokens := Function.update w.shared.tokens key none }
            sess := Function.update w.sess i { w.sess i with deleted := true }
            size := w.size } := by
  -- a token that was gone stays gone
  have hless : ∀ token, w.shared.tokens token = none →
      Function.update w.shared.tokens key none token = none := by
    intro token ht
    by_cases heq : token = key
    · rw [heq, Function.update_self]
    · rwa [Function.update_of_ne heq]
  refine h.update i ?_ ?_ (fun j _ => ?_) fun j hj => ⟨?_, ?_⟩
  · refine { h.store with gone := fun token ht => ?_, stored := fun token ht => ?_ }
    · exact hless token (h.store.gone token ht)
    · exact h.store.stored token fun hnone => ht (hless token hnone)
  · -- the token that it has found is gone now
    refine { h.sess i with gone := fun token ht _ => ?_ }
    rw [hfound] at ht
    cases ht
    exact Function.update_self ..
  · exact { h.sess j with gone := fun token ht hd => hless token ((h.sess j).gone token ht hd) }
  · exact (h.apart i j hj.symm).found
  · exact (h.apart i j hj.symm).drawn

/-- A request stores the token that it has drawn, in exchange for the one that it has deleted. -/
theorem grant (h : Sound w) (i : ℕ) {random : String} {value : String × Time}
    (hdrawn : (w.sess i).drawn = some random)
    (hdeleted : (w.sess i).found ≠ none → (w.sess i).deleted = true) :
    Sound { shared :=
              { w.shared with
                tokens := Function.update w.shared.tokens (refreshKey random) (some value)
                granted := ((w.sess i).found, refreshKey random) :: w.shared.granted }
            sess := Function.update w.sess i {}
            size := w.size } := by
  obtain ⟨hissued, hfresh⟩ := (h.sess i).fresh random hdrawn
  -- a token that was stored before is not the new one
  have hold {token : String} (ht : token ∈ w.shared.stored) :
      Function.update w.shared.tokens (refreshKey random) (some value) token =
        w.shared.tokens token := by
    refine Function.update_of_ne (fun heq => hfresh ?_) _ _
    rwa [← heq]
  have hexchanged {token : String} (ht : token ∈
      (((w.sess i).found, refreshKey random) :: w.shared.granted).filterMap Prod.fst) :
      token ∈ (w.sess i).found ∨ token ∈ w.shared.exchanged := by
    rw [List.filterMap_cons] at ht
    cases hfound : (w.sess i).found with
    | none =>
        rw [hfound] at ht
        exact .inr ht
    | some token' =>
        rw [hfound] at ht
        rcases List.mem_cons.mp ht with rfl | ht
        · exact .inl rfl
        · exact .inr ht
  have hgone : ∀ token ∈ (w.sess i).found, w.shared.tokens token = none := fun token ht =>
    (h.sess i).gone token ht (hdeleted (by rw [ht]; exact Option.some_ne_none _))
  refine h.update i ?_ (AuthSession.sound_idle _) (fun j hj => ?_)
    fun _ _ => AuthSession.apart_idle _
  · refine ⟨?_, fun token ht => ?_, fun token ht => ?_, fun token ht => ?_, fun token ht => ?_, ?_⟩
    · change (List.filterMap Prod.fst (_ :: _)).Nodup
      rw [List.filterMap_cons]
      cases hfound : (w.sess i).found with
      | none => exact h.store.once
      | some token => exact List.nodup_cons.mpr ⟨(h.sess i).unused token hfound, h.store.once⟩
    · rcases hexchanged ht with ht | ht
      · exact (hold ((h.sess i).known token ht)).trans (hgone token ht)
      · exact (hold (h.store.known token ht)).trans (h.store.gone token ht)
    · rcases hexchanged ht with ht | ht
      · exact List.mem_cons_of_mem _ ((h.sess i).known token ht)
      · exact List.mem_cons_of_mem _ (h.store.known token ht)
    · by_cases heq : token = refreshKey random
      · rw [heq]
        exact List.mem_cons_self
      · refine List.mem_cons_of_mem _ (h.store.stored token fun hnone => ht ?_)
        exact (Function.update_of_ne heq _ _).trans hnone
    · rcases List.mem_cons.mp ht with rfl | ht
      · exact ⟨random, hissued, rfl⟩
      · exact h.store.keys token ht
    · exact List.nodup_cons.mpr ⟨hfresh, h.store.distinct⟩
  · refine ⟨fun token ht hex => ?_, fun token ht => ?_, fun token ht hd => ?_, fun random' hr => ?_⟩
    · rcases hexchanged hex with hex | hex
      · exact (h.apart i j hj.symm).found token hex ht
      · exact (h.sess j).unused token ht hex
    · exact List.mem_cons_of_mem _ ((h.sess j).known token ht)
    · exact (hold ((h.sess j).known token ht)).trans ((h.sess j).gone token ht hd)
    · refine ⟨((h.sess j).fresh random' hr).1, fun hstored => ?_⟩
      rcases List.mem_cons.mp hstored with heq | hstored
      · rw [refreshKey_injective heq] at hr
        exact (h.apart i j hj.symm).drawn random hdrawn hr
      · exact ((h.sess j).fresh random' hr).2 hstored

/-- Keys expire, and nothing else changes about tokens. -/
theorem expire (h : Sound w) {s' : AuthStore} (he : AuthStore.env w.shared s') :
    Sound { w with shared := s' } := by
  obtain ⟨users, tokens, clock, rfl, -, htokens⟩ := he
  have hless : ∀ token, w.shared.tokens token = none → tokens token = none := by
    intro token ht
    rcases htokens token with heq | hnone
    · rw [heq, ht]
    · exact hnone
  refine ⟨?_, fun i => ?_, h.apart⟩
  · refine { h.store with gone := fun token ht => ?_, stored := fun token ht => ?_ }
    · exact hless token (h.store.gone token ht)
    · exact h.store.stored token fun hnone => ht (hless token hnone)
  · exact { h.sess i with gone := fun token ht hd => hless token ((h.sess i).gone token ht hd) }

end Sound

/-- A token that is found is in Redis. -/
theorem AuthStore.tokens_of_lookup {s : AuthStore} {key value : String}
    (h : s.lookup key = some value) : s.tokens key ≠ none := by
  intro hnone
  rw [lookup, hnone] at h
  cases h

/-- The invariant holds in every run under the condition. -/
theorem sound {c : Requests} (hstart : s₀.Started)
    (h : (auth checkpw encode).Run ReadsAlone ((auth checkpw encode).initial s₀) c) :
    Sound c.toWorld := by
  refine h.invariant (rotation_abides checkpw encode s₀) (I := Sound) ?_
  refine { init := ?_, spawn := fun _ hI => ⟨hI.store, hI.sess, hI.apart⟩, call := ?_,
           stop := fun _ hI _ => hI.reset _, env := fun _ hI he => hI.expire he }
  · refine ⟨?_, fun _ => AuthSession.sound_idle _, fun _ _ _ => AuthSession.apart_idle _⟩
    -- at the start no token has been granted or exchanged
    have hexchanged : s₀.exchanged = [] := by rw [AuthStore.exchanged, hstart.granted]; rfl
    have hstored : s₀.stored = [] := by rw [AuthStore.stored, hstart.granted]; rfl
    refine ⟨?_, ?_, ?_, fun token ht => absurd (hstart.tokens token) ht, ?_, ?_⟩
    all_goals simp [System.initial, hexchanged, hstored]
  · intro c i o r hcall hI
    have hend : c.shared.Ends o r := hcall.enabled
    have hguard := hcall.guard
    have hallowed := hcall.allowed
    -- an operation that changes neither the store nor the session
    have hsame : Sound { c.toWorld with sess := Function.update c.sess i (c.sess i) } := by
      rwa [Function.update_eq_self]
    cases o with
    | now => exact hsame
    | selectUser email => exact hsame
    | tokenUrlsafe =>
        obtain ⟨token, hfresh, rfl⟩ := hend
        exact hI.draw i hfresh
    | get key =>
        rcases hend with rfl | rfl
        · cases hlookup : c.shared.lookup key with
          | none => exact hsame
          | some value =>
              -- the condition: nobody else has read this token and not exchanged it yet
              have halone : ReadsAlone c.toWorld (.call i (.get key) (.ok (some value))) :=
                hlookup ▸ hallowed
              refine hI.find i hguard (AuthStore.tokens_of_lookup hlookup) fun j hj hfound => ?_
              by_cases hsize : j < c.size
              · -- a request that has not been started has read nothing
                exact halone j hsize hj hfound
              · have hidle := (hcall.run.fresh (System.fresh_initial _)).sess_idle j
                  (not_lt.mp hsize)
                rw [hidle] at hfound
                cases hfound
        · exact hsame
    | delete key =>
        rcases hend with rfl | rfl
        · -- the token is exchanged for a new one, which has not been drawn before
          exact hI.delete i hguard
        · exact hI.reset i
    | setex key ttl value =>
        -- the new token is stored under its own key
        obtain ⟨⟨token, hdrawn, rfl⟩, hdeleted⟩ := hguard
        rcases hend with rfl | rfl
        · exact hI.grant i hdrawn hdeleted
        · exact hI.reset i

/-! ## Single use -/

/-- A token is exchanged for one other token at most. -/
theorem AuthStore.Sound.rotates_unique {s : AuthStore} (h : s.Sound) :
    Relator.RightUnique s.Rotates := by
  intro token t t' ht ht'
  by_contra hne
  -- two exchanges of one token would be two entries of it
  have hpair : (s.granted.filterMap Prod.fst).Nodup := h.once
  have hdistinct : ∀ {l : List (Option String × String)}, (l.filterMap Prod.fst).Nodup →
      (some token, t) ∈ l → (some token, t') ∈ l → False := by
    intro l
    induction l with
    | nil => exact fun _ hmem => nomatch hmem
    | cons p l ih =>
        intro hnodup hmem hmem'
        have htail : (l.filterMap Prod.fst).Nodup :=
          hnodup.sublist ((List.sublist_cons_self p l).filterMap _)
        have hhead {t : String} (hmem : (some token, t) ∈ l) :
            token ∈ l.filterMap Prod.fst := List.mem_filterMap.mpr ⟨_, hmem, rfl⟩
        rcases List.mem_cons.mp hmem with rfl | hrest
        · rcases List.mem_cons.mp hmem' with heq | hrest'
          · cases heq
            exact hne rfl
          · exact (List.nodup_cons.mp hnodup).1 (hhead hrest')
        · rcases List.mem_cons.mp hmem' with rfl | hrest'
          · exact (List.nodup_cons.mp hnodup).1 (hhead hrest)
          · exact ih htail hrest hrest'
  exact hdistinct hpair ht ht'

/-- A token that is alive was not exchanged. -/
theorem AuthStore.Sound.not_rotates {s : AuthStore} (h : s.Sound) {token token' : String}
    (hlive : s.Live token) : ¬ s.Rotates token token' := by
  intro hrotates
  obtain ⟨value, hvalue⟩ := Option.isSome_iff_exists.mp hlive
  refine AuthStore.tokens_of_lookup hvalue (h.gone token ?_)
  exact List.mem_filterMap.mpr ⟨_, hrotates, rfl⟩

/-- In every run in which no request finds a token that another request has found and not yet
deleted, every token is exchanged at most once, and at most one descendant of a login is alive. -/
theorem refresh_single_use {c : Requests} (hstart : s₀.Started)
    (h : (auth checkpw encode).Run ReadsAlone ((auth checkpw encode).initial s₀) c) :
    c.shared.SingleUse := by
  have hsound := (sound hstart h).store
  refine ⟨hsound.once, fun root token token' _ htoken htoken' hlive hlive' => ?_⟩
  -- the descendants form a chain, and all but the last one are gone
  have hlast {t t' : String} (hchain : Relation.ReflTransGen c.shared.Rotates t t')
      (hlive : c.shared.Live t) : t = t' := by
    rcases Relation.ReflTransGen.cases_head hchain with heq | ⟨t'', hrotates, -⟩
    · exact heq
    · exact absurd hrotates (hsound.not_rotates hlive)
  rcases Relation.ReflTransGen.total_of_right_unique hsound.rotates_unique htoken htoken' with
    hchain | hchain
  · exact hlast hchain hlive
  · exact (hlast hchain hlive').symm

/-! ## Explicit schedules -/

/-- Whether a step finds a token that no other request has found is decidable. -/
instance (w : World AuthStore AuthSession) (l : AuthEvent) : Decidable (ReadsAlone w l) :=
  match l with
  | .call i (.get key) (.ok (some _)) =>
      inferInstanceAs (Decidable (∀ j < w.size, j ≠ i → (w.sess j).found = some key →
        (w.sess j).deleted = true))
  | .call _ (.get _) (.ok none) | .call _ (.get _) (.error _) | .call _ .now _
  | .call _ .tokenUrlsafe _ | .call _ (.selectUser _) _ | .call _ (.delete _) _
  | .call _ (.setex _ _ _) _ | .spawn | .stop _ | .env => inferInstanceAs (Decidable True)

/-- A user with a password. -/
def alice : User where
  id := ⟨1000⟩
  email := "alice@example.com"
  hashedPassword := "$2b$12$abcdefghijklmnopqrstuuHHm5s6Rv5VfU8n7x8tOZ0qS4W2yQK1i"

/-- The check of this password. -/
def checkAlice (password hashed : String) : Bool :=
  password = "password123" ∧ hashed = alice.hashedPassword

/-- A stand-in for the encoding of access tokens, which nobody reads. -/
def encodeSubject (subject : String) (_ : Time) : String := subject

/-- What a schedule of requests ends in, if it can be played. -/
theorem requests_of_played (ok : World AuthStore AuthSession → AuthEvent → Prop)
    [∀ w l, Decidable (ok w l)] {ms : List (System.Move AuthCue)} {P : AuthStore → Prop}
    [DecidablePred P]
    (h : (System.play ok (authPlayer checkAlice encodeSubject)
      ((auth checkAlice encodeSubject).initial { users := [alice] }) ms).any
      (fun c => decide (P c.shared)) = true) :
    ∃ c, (auth checkAlice encodeSubject).Run ok
      ((auth checkAlice encodeSubject).initial { users := [alice] }) c ∧ P c.shared := by
  obtain ⟨c, hc, hP⟩ := (Option.any_eq_true _ _).mp h
  exact ⟨c, System.run_of_play hc, of_decide_eq_true hP⟩

/-- The user logs in and is given a token. -/
def loggedIn : List (System.Move AuthCue) :=
  [.spawn (.login "alice@example.com" "password123"), .call 0 .proceed, .call 0 .proceed,
    .call 0 (.draw "a"), .call 0 .proceed]

/-- The token is exchanged, and the one that it was exchanged for is exchanged again. -/
theorem refresh_single_use_twice :
    ∃ c, (auth checkAlice encodeSubject).Run ReadsAlone
      ((auth checkAlice encodeSubject).initial { users := [alice] }) c ∧
      c.shared.exchanged = [refreshKey "b", refreshKey "a"] ∧ c.shared.SingleUse := by
  obtain ⟨c, hrun, hexchanged⟩ := requests_of_played ReadsAlone
    (P := fun s => s.exchanged = [refreshKey "b", refreshKey "a"])
    (show (System.play _ _ _ (loggedIn ++
      [.spawn (.refresh "a"), .call 1 .proceed, .call 1 .proceed, .call 1 .proceed,
        .call 1 (.draw "b"), .call 1 .proceed, .spawn (.refresh "b"), .call 2 .proceed,
        .call 2 .proceed, .call 2 .proceed, .call 2 (.draw "c"), .call 2 .proceed])).any _ = true by
      decide +kernel)
  exact ⟨c, hrun, hexchanged, refresh_single_use ⟨fun _ => rfl, rfl⟩ hrun⟩

/-- Without the condition, two requests find the token before either deletes it, and both exchange
it. -/
theorem refresh_twice :
    ¬ ∀ c, (auth checkAlice encodeSubject).Run System.anyStep
      ((auth checkAlice encodeSubject).initial { users := [alice] }) c → c.shared.SingleUse := by
  intro hsingle
  obtain ⟨c, hrun, htwice⟩ := requests_of_played System.anyStep
    (P := fun s => ¬ s.exchanged.Nodup)
    (show (System.play _ _ _ (loggedIn ++
      [.spawn (.refresh "a"), .spawn (.refresh "a"), .call 1 .proceed, .call 2 .proceed,
        .call 1 .proceed, .call 2 .proceed, .call 1 .proceed, .call 1 (.draw "b"), .call 1 .proceed,
        .call 2 .proceed, .call 2 (.draw "c"), .call 2 .proceed])).any _ = true by decide +kernel)
  exact htwice (hsingle c hrun).1

end MiniWallet
