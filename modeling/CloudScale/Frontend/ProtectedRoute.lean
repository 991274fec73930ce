/-
  The route guard (`components/ProtectedRoute.tsx`) over the auth store (`stores/authStore.ts`).

  The guard asks for the role only if the store has a user. What puts a user there is the response
  of the auth service, which is a `TokenResponse` and has none (`TokenResponse.credentials`), so
  login and refresh leave a store that is authenticated without a user. `guarded_storeAfter`: until
  the next `setUser` or logout every route with roles is shown. `guarded_iff`: along a run every
  state shows such routes to their roles only, exactly if there is neither a login nor a refresh in
  it. `shown_without_role` is a login.
-/
import CloudScale.Frontend.ApiClient
import Mathlib.Data.List.Induction

namespace CloudScale.Frontend

open CloudScale.Lib

/-! ## The guard -/

/-- What the component renders. -/
inductive Rendered where
  | navigate (target : String)
  | outlet
deriving DecidableEq

/-- `ProtectedRoute`. -/
def protectedRoute (s : AuthState) (allowedRoles : Option (List String)) : Rendered :=
  if s.isAuthenticated then
    match allowedRoles, s.user with
    | some roles, some user =>
      if roles.contains user.role then .outlet else .navigate "/unauthorized"
    | _, _ => .outlet
  else .navigate "/login"

/-- A route with roles is shown to users with one of them. -/
def Guarded (s : AuthState) : Prop :=
  ∀ roles : List String, roles ≠ [] → protectedRoute s (some roles) = .outlet →
    ∃ user ∈ s.user, user.role ∈ roles

/-- The guard is sound where an authenticated state has a user. -/
theorem guarded_iff_user (s : AuthState) :
    Guarded s ↔ (s.isAuthenticated = true → s.user ≠ none) := by
  constructor
  · intro h hauth hnone
    have houtlet : protectedRoute s (some ["admin"]) = .outlet := by
      unfold protectedRoute
      rw [if_pos hauth, hnone]
    obtain ⟨user, huser, -⟩ := h ["admin"] (by decide) houtlet
    rw [hnone] at huser
    cases huser
  · intro h roles _ houtlet
    unfold protectedRoute at houtlet
    split at houtlet
    · next hauth =>
      obtain ⟨user, huser⟩ := Option.ne_none_iff_exists'.mp (h hauth)
      rw [huser] at houtlet
      dsimp only at houtlet
      split at houtlet
      · next hrole => exact ⟨user, huser, by simpa using hrole⟩
      · cases houtlet
    · cases houtlet

/-! ## The store -/

/-- The answer of the login and refresh endpoints. -/
structure TokenResponse where
  accessToken : String
  refreshToken : String
  tokenType : String := "bearer"

/-- `const { user, access_token, refresh_token } = response.data`; there is no `user` in it. -/
def TokenResponse.credentials (r : TokenResponse) : RefreshData :=
  { accessToken := r.accessToken, refreshToken := r.refreshToken, user := none }

def AuthState.setUser (s : AuthState) (user : User) : AuthState := { s with user := some user }

def AuthState.setAccessToken (s : AuthState) (token : String) : AuthState :=
  { s with accessToken := some token }

inductive StoreAction where
  | login (response : TokenResponse)
  | refresh (response : TokenResponse)
  | setUser (user : User)
  | setAccessToken (token : String)
  | logout

/-- `setCredentials` with the data of a response. -/
def RefreshData.state (data : RefreshData) : AuthState :=
  setCredentials data.user data.accessToken data.refreshToken

def AuthState.apply (s : AuthState) : StoreAction → AuthState
  | .login response => response.credentials.state
  | .refresh response => response.credentials.state
  | .setUser user => s.setUser user
  | .setAccessToken token => s.setAccessToken token
  | .logout => {}

/-- A session begins or is renewed. -/
def StoreAction.Authenticates : StoreAction → Prop
  | .login _ => True
  | .refresh _ => True
  | _ => False

/-! ## The store of the client -/

section Client

variable {c t : Client} {l : Label}

theorem store_release (token : Option String) (queue : List Attempt) (c : Client) :
    (queue.foldl (Client.release token) c).store = c.store := by
  induction queue generalizing c with
  | nil => rfl
  | cons a queue ih =>
    rw [List.foldl_cons, ih]
    unfold Client.release
    split <;> rfl

/-- The data of the auth service that a step of the client has. -/
def Label.data : Label → Option RefreshData
  | .refreshed _ data => some data
  | .login user accessToken refreshToken => some ⟨accessToken, refreshToken, user⟩
  | _ => none

theorem store_onError (c : Client) (a : Attempt) (status : Option ℕ) :
    (c.onError a status).store = c.store ∨ (c.onError a status).store = {} := by
  unfold Client.onError
  split
  · split
    · exact Or.inl rfl
    · dsimp only
      split
      · exact Or.inr rfl
      · exact Or.inl rfl
  · exact Or.inl rfl

/-- With the schema of the auth service, a step of the client does to the store what one of its
    actions does, if anything. -/
theorem store_step (h : step c l = some t)
    (hschema : ∀ data, l.data = some data → data.user = none) :
    t.store = c.store ∨ ∃ action, t.store = c.store.apply action := by
  have hlogout : t.store = {} → ∃ action, t.store = c.store.apply action := fun h => ⟨.logout, h⟩
  cases l with
  | send =>
    obtain rfl := Option.some.inj h
    exact Or.inl rfl
  | dispatch i =>
    obtain ⟨a, -, rfl⟩ := Option.map_eq_some_iff.mp h
    exact Or.inl rfl
  | respond i response =>
    obtain ⟨a, -, rfl⟩ := Option.map_eq_some_iff.mp h
    cases response with
    | fulfilled => exact Or.inl rfl
    | error status =>
      refine (store_onError _ a status).imp (fun hsame => hsame.trans ?_) hlogout
      split <;> rfl
  | refreshed i data =>
    obtain ⟨a, -, rfl⟩ := Option.map_eq_some_iff.mp h
    obtain ⟨accessToken, refreshToken, user⟩ := data
    obtain rfl : user = none := hschema _ rfl
    exact Or.inr ⟨.refresh ⟨accessToken, refreshToken, "bearer"⟩, store_release _ _ _⟩
  | refreshFailed i =>
    obtain ⟨a, -, rfl⟩ := Option.map_eq_some_iff.mp h
    exact Or.inr (hlogout rfl)
  | login user accessToken refreshToken =>
    obtain rfl := Option.some.inj h
    obtain rfl : user = none := hschema _ rfl
    exact Or.inr ⟨.login ⟨accessToken, refreshToken, "bearer"⟩, rfl⟩
  | logout =>
    obtain rfl := Option.some.inj h
    exact Or.inr (hlogout rfl)

end Client

/-! ## Runs -/

/-- The store after some actions. -/
def storeAfter (actions : List StoreAction) : AuthState := actions.foldl AuthState.apply {}

theorem storeAfter_append (actions : List StoreAction) (a : StoreAction) :
    storeAfter (actions ++ [a]) = (storeAfter actions).apply a := by
  unfold storeAfter
  rw [List.foldl_append]
  rfl

/-- After it the store has a user or is not authenticated. -/
def StoreAction.Settles : StoreAction → Prop
  | .setUser _ => True
  | .logout => True
  | _ => False

instance : DecidablePred StoreAction.Settles := fun a => by
  cases a <;> unfold StoreAction.Settles <;> infer_instance

/-- The actions since the last that settles the store. -/
def sinceSettled (actions : List StoreAction) : List StoreAction :=
  actions.reverse.takeWhile fun a => ¬ a.Settles

theorem sinceSettled_append (actions : List StoreAction) (a : StoreAction) :
    sinceSettled (actions ++ [a]) = if a.Settles then [] else a :: sinceSettled actions := by
  unfold sinceSettled
  rw [List.reverse_append, List.reverse_singleton, List.singleton_append, List.takeWhile_cons]
  by_cases h : a.Settles <;> simp [h]

/-- In the state after some actions routes with roles are shown to users with one of them only,
    exactly if nobody has logged in or refreshed a token since the last `setUser` or logout. -/
theorem guarded_storeAfter (actions : List StoreAction) :
    Guarded (storeAfter actions) ↔ ∀ a ∈ sinceSettled actions, ¬ a.Authenticates := by
  rw [guarded_iff_user]
  induction actions using List.reverseRecOn with
  | nil =>
    refine iff_of_true (fun h => ?_) (fun a ha => ?_)
    · cases h
    · cases ha
  | append_singleton actions a ih =>
    rw [storeAfter_append, sinceSettled_append]
    cases a with
    | login response =>
      refine iff_of_false (fun h => h rfl rfl) (fun h => ?_)
      exact h (.login response) List.mem_cons_self trivial
    | refresh response =>
      refine iff_of_false (fun h => h rfl rfl) (fun h => ?_)
      exact h (.refresh response) List.mem_cons_self trivial
    | setUser user =>
      refine iff_of_true (fun _ h => ?_) (fun a ha => ?_)
      · cases h
      · cases ha
    | logout =>
      refine iff_of_true (fun h => ?_) (fun a ha => ?_)
      · cases h
      · cases ha
    | setAccessToken token =>
      -- neither the user nor the flag changes, and the action does not authenticate
      have hsettles : ¬ (StoreAction.setAccessToken token).Settles := fun h => h
      rw [if_neg hsettles, List.forall_mem_cons]
      exact ih.trans (and_iff_right fun h => h).symm

/-- The actions that authenticate are what breaks the guard: along a run every state shows routes
    with roles to users with one of them only, exactly if nobody logs in and no token is refreshed.
    -/
theorem guarded_iff (actions : List StoreAction) :
    (∀ n, Guarded (storeAfter (actions.take n))) ↔ ∀ a ∈ actions, ¬ a.Authenticates := by
  constructor
  · intro h a ha hauth
    obtain ⟨before, after, rfl⟩ := List.append_of_mem ha
    have hguarded := h (before.length + 1)
    rw [List.take_length_add_append, List.take_succ_cons, List.take_zero, guarded_storeAfter,
      sinceSettled_append] at hguarded
    have hsettles : ¬ a.Settles := by
      cases a with
      | login response => exact fun h => h
      | refresh response => exact fun h => h
      | _ => exact hauth.elim
    rw [if_neg hsettles] at hguarded
    exact hguarded a List.mem_cons_self hauth
  · intro h n
    rw [guarded_storeAfter]
    intro a ha
    have hmem : a ∈ (actions.take n).reverse := (List.takeWhile_sublist _).subset ha
    exact h a (List.mem_of_mem_take (List.mem_reverse.mp hmem))

/-- A route with roles can be shown to users with none of them; after a login it is shown without
    any. -/
theorem shown_without_role : ¬ ∀ actions : List StoreAction, Guarded (storeAfter actions) := by
  intro hevery
  have houtlet : protectedRoute (storeAfter [.login ⟨"access-1", "refresh-1", "bearer"⟩])
      (some ["admin"]) = .outlet := rfl
  obtain ⟨user, huser, -⟩ := hevery _ ["admin"] (by decide) houtlet
  cases huser

end CloudScale.Frontend
