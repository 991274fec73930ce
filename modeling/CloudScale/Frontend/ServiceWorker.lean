/-
  The service worker (`public/sw.js`).

  A handler runs up to its next promise, so a step is an event, or one promise of a handler settling
  with the code up to the next one (`step_cases`, `Resumes`). `tasks` are the promises that are
  still pending, `served` and `network` histories, latest first: what `respondWith` was given, and
  what the network answered.

  `answers_run`: where every answer comes from, and what the caches hold.
-/
import CloudScale.Lib.Run
import CloudScale.Lib.Table
import Mathlib.Data.List.Perm.Basic

namespace CloudScale.Frontend.ServiceWorker

open CloudScale.Lib

/-! ## Requests and caches -/

/-- The URL stands without its fragment, the names of header fields in lower case. -/
structure Request where
  method : String
  url : String
  headers : List (String × String) := []
deriving DecidableEq

inductive ResponseType where
  | basicType
  | corsType
  | opaqueType
  | opaqueRedirectType
  | errorType
deriving DecidableEq

/-- `vary` are the fields of the `Vary` header. -/
structure Response where
  status : ℕ
  type : ResponseType
  vary : List String := []
  body : String
deriving DecidableEq

/-- A request with its response, as a cache has it. -/
structure Item where
  request : Request
  response : Response
deriving DecidableEq

/-- The request matches the entry. -/
def Item.answers (item : Item) (r : Request) : Bool :=
  r.url == item.request.url &&
    item.response.vary.all fun name => r.headers.lookup name == item.request.headers.lookup name

/-- `CacheStorage`, in the order in which the caches were opened. -/
abbrev Caches := Table String (String × List Item) Prod.fst

/-- `caches.match` -/
def cachesMatch (caches : Caches) (r : Request) : Option Item :=
  caches.rows.findSome? fun c => c.2.find? (·.answers r)

/-- `cache.put`: it replaces the entries that match. -/
def put (items : List Item) (item : Item) : List Item :=
  items.filter (fun x => !x.answers item.request) ++ [item]

/-- Whether `put` and `addAll` take the response. -/
def Response.storable (resp : Response) : Bool := resp.status ≠ 206 && "*" ∉ resp.vary

/-- `CACHE_NAME` -/
def cacheName : String := "cloudscale-v1"

/-- `ASSETS` -/
def assets : List String :=
  ["/", "/index.html", "/manifest.json", "/assets/index-BmAWwiwj.css", "/assets/index-B6ozg_s9.js",
    "/icons/icon-192x192.png", "/icons/icon-512x512.png"]

/-- `caches.open(CACHE_NAME)` -/
def openCache (caches : Caches) : Caches := (caches.extend [(cacheName, [])]).getD caches

/-- The entries are put into the worker's cache. -/
def putAll (caches : Caches) (items : List Item) : Caches :=
  (openCache caches).modify cacheName (fun c => (c.1, items.foldl put c.2)) fun _ => rfl

/-- `caches.delete` -/
def deleteCache (caches : Caches) (key : String) : Caches where
  rows := caches.rows.filter fun c => c.1 ≠ key
  nodup := caches.nodup.sublist (List.filter_sublist.map Prod.fst)

/-! ## The worker -/

/-- What a handler waits for: `caches.match` and `fetch` of a request, `caches.match("/")` after a
    fetch that failed, the `put` of an entry, `addAll`, `caches.keys`, `caches.delete`. -/
inductive Task where
  | matching (r : Request)
  | fetching (r : Request)
  | offline (r : Request)
  | storing (item : Item)
  | adding
  | listing
  | deleting (key : String)
deriving DecidableEq

structure Worker where
  caches : Caches
  tasks : List Task := []
  served : List (Request × Option Response) := []
  network : List Item := []
  failed : List Request := []

/-- How a promise settles. -/
inductive Outcome where
  | done
  | responded (resp : Response)
  | added (responses : List Response)
  | failed

inductive WorkerLabel where
  | install
  | activate
  | fetch (r : Request)
  | settle (i : ℕ) (outcome : Outcome)

section Handlers

variable (origin : String)

/-- Whether the `fetch` handler takes the request. -/
def Handled (r : Request) : Prop := r.method = "GET" ∧ origin.toList <+: r.url.toList

instance (r : Request) : Decidable (Handled origin r) := inferInstanceAs (Decidable (_ ∧ _))

/-- The request that a path stands for. -/
def ofPath (path : String) : Request := { method := "GET", url := origin ++ path }

/-- `Response.ok` -/
def Response.ok (resp : Response) : Bool := 200 ≤ resp.status && resp.status ≤ 299

/-- The handler goes on with more promises. -/
def Worker.spawn (w : Worker) (tasks : List Task) : Worker := { w with tasks := w.tasks ++ tasks }

/-- `caches.match` has found an entry or none. -/
def Worker.onMatch (w : Worker) (r : Request) : Worker :=
  match cachesMatch w.caches r with
  | some item => { w with served := (r, some item.response) :: w.served }
  | none => w.spawn [.fetching r]

/-- The network has answered. -/
def Worker.onResponse (w : Worker) (r : Request) (resp : Response) : Worker :=
  let w := { w with network := ⟨r, resp⟩ :: w.network, served := (r, some resp) :: w.served }
  if resp.status ≠ 200 ∨ resp.type ≠ .basicType then w
  else w.spawn [.storing ⟨r, resp⟩]

/-- The fetch has failed. -/
def Worker.onError (w : Worker) (r : Request) : Worker :=
  { w.spawn [.offline r] with failed := r :: w.failed }

/-- `caches.match("/")` after it. -/
def Worker.onOffline (w : Worker) (r : Request) : Worker :=
  { w with
    served := (r, (cachesMatch w.caches (ofPath origin "/")).map (·.response)) :: w.served }

/-- The cache is open, and what was to be put into it is not. -/
def Worker.opened (w : Worker) : Worker := { w with caches := openCache w.caches }

/-- `cache.put` of a response. -/
def Worker.onPut (w : Worker) (item : Item) : Worker :=
  if item.response.storable then { w with caches := putAll w.caches [item] } else w.opened

/-- `addAll(ASSETS)` stores all of the responses or none. -/
def addAll (w : Worker) (responses : List Response) : Worker :=
  let items := (assets.zip responses).map fun x => Item.mk (ofPath origin x.1) x.2
  if responses.length = assets.length ∧ responses.all (fun resp => resp.ok && resp.storable) then
    { w with caches := putAll w.caches items, network := items ++ w.network }
  else w.opened

/-- `caches.keys` of an activation. -/
def Worker.onKeys (w : Worker) : Worker :=
  w.spawn (((w.caches.rows.map Prod.fst).filter (· ≠ cacheName)).map .deleting)

def Worker.onDelete (w : Worker) (key : String) : Worker :=
  { w with caches := deleteCache w.caches key }

/-- A promise has settled. -/
def Worker.resume (w : Worker) : Task → Outcome → Option Worker
  | .matching r, .done => some (w.onMatch r)
  | .fetching r, .responded resp => some (w.onResponse r resp)
  | .fetching r, .failed => some (w.onError r)
  | .offline r, .done => some (w.onOffline origin r)
  | .storing item, .done => some (w.onPut item)
  | .storing _, .failed => some w.opened
  | .adding, .added responses => some (addAll origin w responses)
  | .adding, .failed => some w.opened
  | .listing, .done => some w.onKeys
  | .deleting key, .done => some (w.onDelete key)
  | _, _ => none

/-- The promise at place `i` is no longer pending. -/
def Worker.drop (w : Worker) (i : ℕ) : Worker := { w with tasks := w.tasks.eraseIdx i }

def Worker.step (w : Worker) : WorkerLabel → Option Worker
  | .install => some (w.spawn [.adding])
  | .activate => some (w.spawn [.listing])
  | .fetch r => if Handled origin r then some (w.spawn [.matching r]) else some w
  | .settle i outcome =>
    match w.tasks[i]? with
    | none => none
    | some task => (w.drop i).resume origin task outcome

end Handlers

/-! ## Steps -/

/-- What a promise can do when it settles. -/
inductive Resumes (origin : String) (w : Worker) : Task → Worker → Prop
  | matched (r : Request) : Resumes origin w (.matching r) (w.onMatch r)
  | responded (r : Request) (resp : Response) : Resumes origin w (.fetching r) (w.onResponse r resp)
  | errored (r : Request) : Resumes origin w (.fetching r) (w.onError r)
  | offline (r : Request) : Resumes origin w (.offline r) (w.onOffline origin r)
  | stored (item : Item) : Resumes origin w (.storing item) (w.onPut item)
  | unstored (item : Item) : Resumes origin w (.storing item) w.opened
  | added (responses : List Response) : Resumes origin w .adding (addAll origin w responses)
  | unadded : Resumes origin w .adding w.opened
  | listed : Resumes origin w .listing w.onKeys
  | deleted (key : String) : Resumes origin w (.deleting key) (w.onDelete key)

/-- The handlers' first promises. -/
def Starts (origin : String) : WorkerLabel → Task → Prop
  | .install, .adding => True
  | .activate, .listing => True
  | .fetch r, .matching q => q = r ∧ Handled origin r
  | _, _ => False

section Steps

variable {origin : String} {w w' : Worker}

theorem resumes_of_resume {task : Task} {outcome : Outcome}
    (h : w.resume origin task outcome = some w') : Resumes origin w task w' := by
  unfold Worker.resume at h
  split at h <;> cases h <;> constructor

/-- A step starts a handler, does nothing, or lets a promise settle. -/
theorem step_cases {l : WorkerLabel} (h : w.step origin l = some w') :
    (∃ task, Starts origin l task ∧ w' = w.spawn [task]) ∨ w' = w ∨
      ∃ i task, w.tasks[i]? = some task ∧ Resumes origin (w.drop i) task w' := by
  cases l with
  | install => exact .inl ⟨.adding, trivial, (Option.some.inj h).symm⟩
  | activate => exact .inl ⟨.listing, trivial, (Option.some.inj h).symm⟩
  | fetch r =>
    simp only [Worker.step] at h
    split at h
    · next hr => exact .inl ⟨.matching r, ⟨rfl, hr⟩, (Option.some.inj h).symm⟩
    · exact .inr (.inl (Option.some.inj h).symm)
  | settle i outcome =>
    simp only [Worker.step] at h
    split at h
    · cases h
    · next task htask => exact .inr (.inr ⟨i, task, htask, resumes_of_resume h⟩)

end Steps

/-! ## The caches -/

section CacheLemmas

variable {caches : Caches} {items : List Item} {item x : Item} {r : Request}

theorem rows_openCache (caches : Caches) :
    (openCache caches).rows = caches.rows ∨
      (openCache caches).rows = caches.rows ++ [(cacheName, [])] := by
  unfold openCache
  cases h : caches.extend [(cacheName, [])] with
  | none => exact .inl rfl
  | some caches' => exact .inr (Table.rows_extend h)

theorem mem_openCache {c : String × List Item} (h : c ∈ (openCache caches).rows) :
    c ∈ caches.rows ∨ c = (cacheName, []) := by
  rcases rows_openCache caches with hrows | hrows
  · exact .inl (hrows ▸ h)
  · rw [hrows] at h
    exact (List.mem_append.mp h).imp id List.mem_singleton.mp

theorem mem_put (h : x ∈ put items item) : x ∈ items ∨ x = item := by
  rcases List.mem_append.mp h with h | h
  · exact .inl (List.mem_of_mem_filter h)
  · exact .inr (List.mem_singleton.mp h)

theorem mem_puts {new : List Item} (h : x ∈ new.foldl put items) : x ∈ items ∨ x ∈ new := by
  induction new generalizing items with
  | nil => exact .inl h
  | cons y new ih =>
    rcases ih h with hx | hx
    · rcases mem_put hx with hx | rfl
      · exact .inl hx
      · exact .inr List.mem_cons_self
    · exact .inr (List.mem_cons_of_mem y hx)

/-- A cache after a `put` is one from before, or the worker's with new entries. -/
theorem mem_putAll {new : List Item} {c : String × List Item} (h : c ∈ (putAll caches new).rows) :
    c.1 ≠ cacheName ∧ c ∈ caches.rows ∨ c.1 = cacheName ∧ ∀ x ∈ c.2, x ∈ new ∨
      ∃ c' ∈ caches.rows, x ∈ c'.2 := by
  obtain ⟨c', hc', rfl⟩ := List.mem_map.mp h
  by_cases hname : c'.1 = cacheName
  · rw [if_pos hname]
    refine .inr ⟨hname, fun x hx => ?_⟩
    rcases mem_puts hx with hx | hx
    · rcases mem_openCache hc' with hmem | rfl
      · exact .inr ⟨c', hmem, hx⟩
      · exact absurd hx List.not_mem_nil
    · exact .inl hx
  · rw [if_neg hname]
    refine .inl ⟨hname, ?_⟩
    rcases mem_openCache hc' with hmem | rfl
    · exact hmem
    · exact absurd rfl hname

theorem mem_of_cachesMatch (h : cachesMatch caches r = some item) :
    ∃ c ∈ caches.rows, item ∈ c.2 ∧ item.answers r = true := by
  obtain ⟨c, hc, hfind⟩ := List.exists_of_findSome?_eq_some h
  exact ⟨c, hc, List.mem_of_find?_eq_some hfind,
    List.find?_some (p := fun x : Item => x.answers r) hfind⟩

end CacheLemmas

/-! ## Where answers come from -/

section Sources

variable (origin : String) (before : Caches)

/-- What the worker may store. -/
def Cacheable (item : Item) : Prop :=
  Handled origin item.request ∧ item.response.status = 200 ∧ item.response.type = .basicType ∨
    (∃ path ∈ assets, item.request = ofPath origin path) ∧ item.response.ok = true

/-- An entry from before, or one that the network answered and the worker may store. -/
def Known (w : Worker) (item : Item) : Prop :=
  (∃ c ∈ before.rows, item ∈ c.2) ∨ item ∈ w.network ∧ Cacheable origin item

/-- The answers of a request: an entry that matches it, the network's answer to it, or, if its fetch
    has failed, an entry for the start page or nothing. -/
inductive Answers (w : Worker) (r : Request) : Option Response → Prop
  | cached (item : Item) (hknown : Known origin before w item) (hanswers : item.answers r = true) :
    Answers w r (some item.response)
  | fetched (resp : Response) (hnetwork : ⟨r, resp⟩ ∈ w.network) : Answers w r (some resp)
  | startPage (item : Item) (hfailed : r ∈ w.failed) (hknown : Known origin before w item)
    (hanswers : item.answers (ofPath origin "/") = true) : Answers w r (some item.response)
  | nothing (hfailed : r ∈ w.failed) : Answers w r none

/-- What is known of a request or an entry that a handler works on. -/
def Sound (w : Worker) : Task → Prop
  | .matching r => Handled origin r
  | .fetching r => Handled origin r
  | .offline r => Handled origin r ∧ r ∈ w.failed
  | .storing item => item ∈ w.network ∧ Cacheable origin item
  | _ => True

structure Sourced (w : Worker) : Prop where
  entries : ∀ c ∈ w.caches.rows, ∀ x ∈ c.2, Known origin before w x
  tasks : ∀ task ∈ w.tasks, Sound origin w task
  served : ∀ x ∈ w.served, Handled origin x.1 ∧ Answers origin before w x.1 x.2

variable {origin before} {w w' : Worker} {item : Item} {r : Request}

theorem Known.mono (h : Known origin before w item) (hnetwork : w.network ⊆ w'.network) :
    Known origin before w' item := h.imp id fun hitem => ⟨hnetwork hitem.1, hitem.2⟩

theorem Answers.mono {a : Option Response} (h : Answers origin before w r a)
    (hnetwork : w.network ⊆ w'.network) (hfailed : w.failed ⊆ w'.failed) :
    Answers origin before w' r a := by
  cases h with
  | cached item hknown hanswers => exact .cached item (hknown.mono hnetwork) hanswers
  | fetched resp hresp => exact .fetched resp (hnetwork hresp)
  | startPage item hr hknown hanswers =>
    exact .startPage item (hfailed hr) (hknown.mono hnetwork) hanswers
  | nothing hr => exact .nothing (hfailed hr)

theorem Sound.mono {task : Task} (h : Sound origin w task) (hnetwork : w.network ⊆ w'.network)
    (hfailed : w.failed ⊆ w'.failed) : Sound origin w' task := by
  cases task with
  | offline r => exact ⟨h.1, hfailed h.2⟩
  | storing item => exact ⟨hnetwork h.1, h.2⟩
  | matching r | fetching r | adding | listing | deleting key => exact h

/-- The histories grow, and what is new comes from somewhere. -/
theorem Sourced.next (h : Sourced origin before w) (hnetwork : w.network ⊆ w'.network)
    (hfailed : w.failed ⊆ w'.failed)
    (hentries : ∀ c ∈ w'.caches.rows, ∀ x ∈ c.2,
      (∃ c' ∈ w.caches.rows, x ∈ c'.2) ∨ Known origin before w' x)
    (htasks : ∀ task ∈ w'.tasks, task ∈ w.tasks ∨ Sound origin w' task)
    (hserved : ∀ x ∈ w'.served, x ∈ w.served ∨
      Handled origin x.1 ∧ Answers origin before w' x.1 x.2) : Sourced origin before w' where
  entries c hc x hx := by
    rcases hentries c hc x hx with ⟨c', hc', hx'⟩ | hknown
    · exact (h.entries c' hc' x hx').mono hnetwork
    · exact hknown
  tasks task htask := by
    rcases htasks task htask with hold | hnew
    · exact (h.tasks task hold).mono hnetwork hfailed
    · exact hnew
  served x hx := by
    rcases hserved x hx with hold | hnew
    · exact ⟨(h.served x hold).1, (h.served x hold).2.mono hnetwork hfailed⟩
    · exact hnew

/-- New handlers. -/
theorem Sourced.spawn (h : Sourced origin before w) {tasks : List Task}
    (htasks : ∀ task ∈ tasks, Sound origin w task) : Sourced origin before (w.spawn tasks) :=
  h.next (List.Subset.refl _) (List.Subset.refl _) (fun c hc _ hx => .inl ⟨c, hc, hx⟩)
    (fun task htask => (List.mem_append.mp htask).imp_right fun hnew =>
      (htasks task hnew).mono (List.Subset.refl _) (List.Subset.refl _)) fun _ hx => .inl hx

theorem Sourced.drop (h : Sourced origin before w) (i : ℕ) : Sourced origin before (w.drop i) :=
  h.next (List.Subset.refl _) (List.Subset.refl _) (fun c hc _ hx => .inl ⟨c, hc, hx⟩)
    (fun _ htask => .inl (List.mem_of_mem_eraseIdx htask)) fun _ hx => .inl hx

/-- One more answer. -/
theorem Sourced.serve (h : Sourced origin before w) (hr : Handled origin r) {a : Option Response}
    (ha : Answers origin before w r a) :
    Sourced origin before { w with served := (r, a) :: w.served } := by
  refine h.next (List.Subset.refl _) (List.Subset.refl _) (fun c hc x hx => .inl ⟨c, hc, hx⟩)
    (fun _ htask => .inl htask) fun x hx => ?_
  rcases List.mem_cons.mp hx with rfl | hx
  · exact .inr ⟨hr, ha.mono (List.Subset.refl _) (List.Subset.refl _)⟩
  · exact .inl hx

/-- Only the caches change. -/
theorem Sourced.recache (h : Sourced origin before w) {caches : Caches}
    (hentries : ∀ c ∈ caches.rows, ∀ x ∈ c.2,
      (∃ c' ∈ w.caches.rows, x ∈ c'.2) ∨ Known origin before w x) :
    Sourced origin before { w with caches } :=
  h.next (List.Subset.refl _) (List.Subset.refl _)
    (fun c hc x hx => (hentries c hc x hx).imp_right fun hknown =>
      hknown.mono (List.Subset.refl _))
    (fun _ htask => .inl htask) fun _ hx => .inl hx

theorem entries_openCache (caches : Caches) :
    ∀ c ∈ (openCache caches).rows, ∀ x ∈ c.2, ∃ c' ∈ caches.rows, x ∈ c'.2 := by
  intro c hc x hx
  rcases mem_openCache hc with hmem | rfl
  · exact ⟨c, hmem, hx⟩
  · exact absurd hx List.not_mem_nil

theorem entries_putAll {caches : Caches} {new : List Item} {c : String × List Item}
    (hc : c ∈ (putAll caches new).rows) {x : Item} (hx : x ∈ c.2) :
    (∃ c' ∈ caches.rows, x ∈ c'.2) ∨ x ∈ new := by
  rcases mem_putAll hc with ⟨-, hmem⟩ | ⟨-, hall⟩
  · exact .inl ⟨c, hmem, hx⟩
  · exact (hall x hx).symm

/-! ### Promises -/

theorem sourced_onMatch (h : Sourced origin before w) (hr : Handled origin r) :
    Sourced origin before (w.onMatch r) := by
  unfold Worker.onMatch
  split
  · next item hfound =>
    obtain ⟨c, hc, hitem, hanswers⟩ := mem_of_cachesMatch hfound
    exact h.serve hr (.cached item (h.entries c hc item hitem) hanswers)
  · exact h.spawn (List.forall_mem_singleton.mpr hr)

theorem sourced_onResponse (h : Sourced origin before w) (hr : Handled origin r) (resp : Response) :
    Sourced origin before (w.onResponse r resp) := by
  have hnetwork : Sourced origin before { w with network := ⟨r, resp⟩ :: w.network } :=
    h.next (List.subset_cons_self _ _) (List.Subset.refl _) (fun c hc x hx => .inl ⟨c, hc, hx⟩)
      (fun _ htask => .inl htask) fun _ hx => .inl hx
  have hanswered := hnetwork.serve hr (.fetched resp List.mem_cons_self)
  unfold Worker.onResponse
  dsimp only
  split
  · exact hanswered
  · next hgood =>
    obtain ⟨hstatus, htype⟩ := not_or.mp hgood
    exact hanswered.spawn (List.forall_mem_singleton.mpr
      ⟨List.mem_cons_self, .inl ⟨hr, not_not.mp hstatus, not_not.mp htype⟩⟩)

theorem sourced_onError (h : Sourced origin before w) (hr : Handled origin r) :
    Sourced origin before (w.onError r) := by
  have hfailed : Sourced origin before { w with failed := r :: w.failed } :=
    h.next (List.Subset.refl _) (List.subset_cons_self _ _) (fun c hc x hx => .inl ⟨c, hc, hx⟩)
      (fun _ htask => .inl htask) fun _ hx => .inl hx
  exact hfailed.spawn (List.forall_mem_singleton.mpr ⟨hr, List.mem_cons_self⟩)

theorem sourced_onOffline (h : Sourced origin before w) (hr : Handled origin r)
    (hfailed : r ∈ w.failed) : Sourced origin before (w.onOffline origin r) := by
  refine h.serve hr ?_
  cases hfound : cachesMatch w.caches (ofPath origin "/") with
  | some item =>
    obtain ⟨c, hc, hitem, hanswers⟩ := mem_of_cachesMatch hfound
    exact .startPage item hfailed (h.entries c hc item hitem) hanswers
  | none => exact .nothing hfailed

theorem sourced_opened (h : Sourced origin before w) : Sourced origin before w.opened :=
  h.recache fun c hc x hx => .inl (entries_openCache w.caches c hc x hx)

theorem sourced_onPut (h : Sourced origin before w)
    (hitem : item ∈ w.network ∧ Cacheable origin item) : Sourced origin before (w.onPut item) := by
  unfold Worker.onPut
  split
  · refine h.recache fun c hc x hx => (entries_putAll hc hx).imp_right fun hx => ?_
    exact .inr (List.mem_singleton.mp hx ▸ hitem)
  · exact sourced_opened h

theorem sourced_addAll (h : Sourced origin before w) (responses : List Response) :
    Sourced origin before (addAll origin w responses) := by
  unfold addAll
  dsimp only
  split
  · next hall =>
    refine h.next (List.subset_append_right _ _) (List.Subset.refl _) (fun c hc x hx => ?_)
      (fun _ htask => .inl htask) fun _ hx => .inl hx
    refine (entries_putAll hc hx).imp_right fun hnew => .inr ⟨List.mem_append_left _ hnew, .inr ?_⟩
    obtain ⟨y, hy, rfl⟩ := List.mem_map.mp hnew
    obtain ⟨hpath, hresponse⟩ := List.of_mem_zip (a := y.1) (b := y.2) hy
    have hok := List.all_eq_true.mp hall.2 y.2 hresponse
    exact ⟨⟨y.1, hpath, rfl⟩, (Bool.and_eq_true_iff.mp hok).1⟩
  · exact sourced_opened h

theorem sourced_onKeys (h : Sourced origin before w) : Sourced origin before w.onKeys := by
  refine h.spawn fun task htask => ?_
  obtain ⟨key, -, rfl⟩ := List.mem_map.mp htask
  trivial

theorem sourced_onDelete (h : Sourced origin before w) (key : String) :
    Sourced origin before (w.onDelete key) :=
  h.recache fun c hc _ hx => .inl ⟨c, List.mem_of_mem_filter hc, hx⟩

theorem sourced_resumes (h : Sourced origin before w) {task : Task} (htask : Sound origin w task)
    (hresumes : Resumes origin w task w') : Sourced origin before w' := by
  cases hresumes with
  | matched r => exact sourced_onMatch h htask
  | responded r resp => exact sourced_onResponse h htask resp
  | errored r => exact sourced_onError h htask
  | offline r => exact sourced_onOffline h htask.1 htask.2
  | stored item => exact sourced_onPut h htask
  | unstored item => exact sourced_opened h
  | added responses => exact sourced_addAll h responses
  | unadded => exact sourced_opened h
  | listed => exact sourced_onKeys h
  | deleted key => exact sourced_onDelete h key

theorem sound_of_starts {l : WorkerLabel} {task : Task} (h : Starts origin l task) :
    Sound origin w task := by
  cases l with
  | install | activate =>
    cases task with
    | adding | listing => trivial
    | _ => exact h.elim
  | fetch r =>
    cases task with
    | matching q => exact h.1 ▸ h.2
    | _ => exact h.elim
  | settle i outcome => exact h.elim

theorem sourced_step {l : WorkerLabel} (h : Sourced origin before w)
    (hstep : w.step origin l = some w') : Sourced origin before w' := by
  obtain ⟨task, hstarts, rfl⟩ | rfl | ⟨i, task, htask, hresumes⟩ := step_cases hstep
  · exact h.spawn (List.forall_mem_singleton.mpr (sound_of_starts hstarts))
  · exact h
  · refine sourced_resumes (h.drop i) ?_ hresumes
    exact (h.tasks task (List.mem_of_getElem? htask)).mono (List.Subset.refl _) (List.Subset.refl _)

/-- In every run, whatever the order of the events and of the promises: the worker answers only GET
    requests with its origin before them, each with an entry that matches it, with what the network
    answered to it, or after a failure with the start page or nothing; and an entry that was not
    there before is what the network answered to such a request, with status 200 and not from
    another origin, or to one of the assets. -/
theorem answers_run (origin : String) (caches : Caches) {ls : List WorkerLabel} {w : Worker}
    (h : Reaches (Worker.step origin) anyStep { caches } ls w) : Sourced origin caches w := by
  refine h.invariant (Sourced origin caches) ⟨fun c hc x hx => .inl ⟨c, hc, hx⟩,
    fun _ htask => absurd htask List.not_mem_nil, fun _ hx => absurd hx List.not_mem_nil⟩ ?_
  exact fun _ _ _ hs _ hstep => sourced_step hs hstep

end Sources

/-- A first visit: the script is fetched and stored. -/
def script : Item where
  request := { method := "GET", url := "https://shop/app.js" }
  response := { status := 200, type := .basicType, body := "v1" }

def firstVisit : List WorkerLabel :=
  [.fetch script.request, .settle 0 .done, .settle 0 (.responded script.response), .settle 0 .done]

def noCaches : Caches := Table.empty

theorem answers_run_firstVisit :
    ∃ w, runFrom (Worker.step "https://shop") { caches := noCaches } firstVisit = some w ∧
      w.caches.rows = [(cacheName, [script])] ∧ Sourced "https://shop" noCaches w := by
  have hrun : runFrom (Worker.step "https://shop") { caches := noCaches } firstVisit = some _ := rfl
  exact ⟨_, hrun, rfl, answers_run "https://shop" noCaches (reaches_run hrun)⟩

end CloudScale.Frontend.ServiceWorker
