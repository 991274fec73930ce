/-
  Cache first, over time: what the service worker's caches become (`public/sw.js`).

  `pinned_run`: an entry of the worker's cache answers its requests for ever, and the network is not
  asked again; only another installation can replace it. `activated_run`: what an activation leaves
  of the caches.
-/
import CloudScale.Frontend.ServiceWorker

namespace CloudScale.Frontend.ServiceWorker

open CloudScale.Lib

/-! ## An entry that is there stays there -/

/-- A task that may replace the entry, or answer its request with something else. -/
def Threatens (r : Request) (item : Item) : Task → Prop
  | .fetching q => item.answers q = true
  | .offline q => q = r
  | .storing x => item.answers x.request = true
  | .adding => True
  | .deleting key => key = cacheName
  | _ => False

/-- The entry is the first in the worker's cache that matches the request, no other cache has one,
    and nothing is under way that threatens it. -/
structure Pinned (r : Request) (item : Item) (w : Worker) : Prop where
  own : ∃ items, (cacheName, items) ∈ w.caches.rows ∧ items.find? (·.answers r) = some item
  others : ∀ c ∈ w.caches.rows, c.1 ≠ cacheName → ∀ x ∈ c.2, x.answers r = false
  tasks : ∀ task ∈ w.tasks, ¬ Threatens r item task

/-- The worker is not installed again. -/
def NoInstall (_ : Worker) : WorkerLabel → Prop
  | .install => False
  | _ => True

instance (w : Worker) (l : WorkerLabel) : Decidable (NoInstall w l) := by
  unfold NoInstall
  split <;> infer_instance

/-- Between `s` and `w`, every answer to the request was the entry, and the network was asked for
    nothing that the entry answers. -/
structure Frozen (s : Worker) (r : Request) (item : Item) (w : Worker) : Prop where
  pinned : Pinned r item w
  served : ∀ a, (r, a) ∈ w.served → (r, a) ∈ s.served ∨ a = some item.response
  network : ∀ x ∈ w.network, item.answers x.request = true → x ∈ s.network
  failed : ∀ q ∈ w.failed, item.answers q = true → q ∈ s.failed

section Freezing

variable {origin : String} {s w w' : Worker} {r : Request} {item : Item}

theorem Pinned.answers (h : Pinned r item w) : item.answers r = true := by
  obtain ⟨items, -, hfind⟩ := h.own
  exact List.find?_some (p := fun x : Item => x.answers r) hfind

/-- The entry answers its request. -/
theorem Pinned.cachesMatch_eq (h : Pinned r item w) : cachesMatch w.caches r = some item := by
  obtain ⟨items, hown, hfind⟩ := h.own
  have hsome : (cachesMatch w.caches r).isSome = true := by
    unfold cachesMatch
    rw [List.findSome?_isSome_iff]
    exact ⟨(cacheName, items), hown, by rw [hfind]; rfl⟩
  obtain ⟨found, hfound⟩ := Option.isSome_iff_exists.mp hsome
  obtain ⟨c, hc, hmatch⟩ := List.exists_of_findSome?_eq_some hfound
  by_cases hname : c.1 = cacheName
  · obtain rfl := Table.row_eq_of_key hc hown hname
    rw [hfound, ← hmatch, hfind]
  · have hno := h.others c hc hname found (List.mem_of_find?_eq_some hmatch)
    rw [List.find?_some (p := fun x : Item => x.answers r) hmatch] at hno
    cases hno

/-- Whatever else the entry answers finds an entry too. -/
theorem Pinned.cachesMatch_isSome (h : Pinned r item w) {q : Request} (hq : item.answers q = true) :
    cachesMatch w.caches q ≠ none := by
  obtain ⟨items, hown, hfind⟩ := h.own
  intro hnone
  have hall := List.find?_eq_none.mp (List.findSome?_eq_none_iff.mp hnone _ hown) item
    (List.mem_of_find?_eq_some hfind)
  exact hall hq

theorem find?_put {items : List Item} {x : Item} (hx : item.answers x.request = false)
    (h : items.find? (·.answers r) = some item) :
    (put items x).find? (·.answers r) = some item := by
  obtain ⟨hitem, front, rest, rfl, hfront⟩ := List.find?_eq_some_iff_append.mp h
  refine List.find?_eq_some_iff_append.mpr ⟨hitem, front.filter fun y => !y.answers x.request,
    rest.filter (fun y => !y.answers x.request) ++ [x], ?_, fun y hy => ?_⟩
  · unfold put
    rw [List.filter_append, List.filter_cons_of_pos (by rw [hx]; rfl)]
    simp
  · exact hfront y (List.mem_of_mem_filter hy)

theorem find?_puts {new items : List Item} (hnew : ∀ x ∈ new, item.answers x.request = false)
    (h : items.find? (·.answers r) = some item) :
    (new.foldl put items).find? (·.answers r) = some item := by
  induction new generalizing items with
  | nil => exact h
  | cons x new ih =>
    obtain ⟨hx, hnew⟩ := List.forall_mem_cons.mp hnew
    exact ih hnew (find?_put hx h)

/-- Caches that have the entry first, and no other for its request in another cache. -/
def Holds (r : Request) (item : Item) (caches : Caches) : Prop :=
  (∃ items, (cacheName, items) ∈ caches.rows ∧ items.find? (·.answers r) = some item) ∧
    ∀ c ∈ caches.rows, c.1 ≠ cacheName → ∀ x ∈ c.2, x.answers r = false

variable {caches : Caches}

theorem holds_openCache (h : Holds r item caches) : Holds r item (openCache caches) := by
  obtain ⟨⟨items, hown, hfind⟩, hothers⟩ := h
  refine ⟨⟨items, ?_, hfind⟩, fun c hc hname => ?_⟩
  · rcases rows_openCache caches with hrows | hrows
    · exact hrows ▸ hown
    · exact hrows ▸ List.mem_append_left _ hown
  · rcases mem_openCache hc with hmem | rfl
    · exact hothers c hmem hname
    · exact absurd rfl hname

theorem holds_putAll (h : Holds r item caches) {new : List Item}
    (hnew : ∀ x ∈ new, item.answers x.request = false) : Holds r item (putAll caches new) := by
  obtain ⟨⟨items, hown, hfind⟩, -⟩ := holds_openCache h
  refine ⟨⟨new.foldl put items, ?_, find?_puts hnew hfind⟩, fun c hc hname => ?_⟩
  · exact List.mem_map.mpr ⟨(cacheName, items), hown, if_pos rfl⟩
  · rcases mem_putAll hc with ⟨-, hmem⟩ | ⟨heq, -⟩
    · exact h.2 c hmem hname
    · exact absurd heq hname

theorem holds_deleteCache (h : Holds r item caches) {key : String} (hkey : key ≠ cacheName) :
    Holds r item (deleteCache caches key) := by
  obtain ⟨⟨items, hown, hfind⟩, hothers⟩ := h
  refine ⟨⟨items, List.mem_filter.mpr ⟨hown, decide_eq_true hkey.symm⟩, hfind⟩, fun c hc => ?_⟩
  exact hothers c (List.mem_of_mem_filter hc)

theorem Pinned.holds (h : Pinned r item w) : Holds r item w.caches := ⟨h.own, h.others⟩

/-- Other caches that still hold the entry. -/
theorem Frozen.recache (h : Frozen s r item w) {caches : Caches} (hholds : Holds r item caches) :
    Frozen s r item { w with caches } :=
  ⟨⟨hholds.1, hholds.2, h.pinned.tasks⟩, h.served, h.network, h.failed⟩

/-- New tasks that do not threaten the entry. -/
theorem Frozen.spawn (h : Frozen s r item w) {tasks : List Task}
    (htasks : ∀ task ∈ tasks, ¬ Threatens r item task) : Frozen s r item (w.spawn tasks) := by
  refine ⟨⟨h.pinned.own, h.pinned.others, fun task htask => ?_⟩, h.served, h.network, h.failed⟩
  rcases List.mem_append.mp htask with hold | hnew
  · exact h.pinned.tasks task hold
  · exact htasks task hnew

theorem Frozen.drop (h : Frozen s r item w) (i : ℕ) : Frozen s r item (w.drop i) :=
  ⟨⟨h.pinned.own, h.pinned.others, fun _ htask =>
    h.pinned.tasks _ (List.mem_of_mem_eraseIdx htask)⟩, h.served, h.network, h.failed⟩

/-- Another request is answered, or this one with the entry. -/
theorem Frozen.serve (h : Frozen s r item w) {q : Request} {a : Option Response}
    (ha : q = r → a = some item.response) :
    Frozen s r item { w with served := (q, a) :: w.served } := by
  refine ⟨⟨h.pinned.own, h.pinned.others, h.pinned.tasks⟩, fun b hb => ?_, h.network, h.failed⟩
  rcases List.mem_cons.mp hb with heq | hb
  · obtain ⟨rfl, rfl⟩ := Prod.mk.inj heq
    exact .inr (ha rfl)
  · exact h.served b hb

/-! ### Promises -/

theorem frozen_onMatch (h : Frozen s r item w) (q : Request) : Frozen s r item (w.onMatch q) := by
  unfold Worker.onMatch
  split
  · next found hfound =>
    refine h.serve fun heq => ?_
    rw [heq, h.pinned.cachesMatch_eq] at hfound
    rw [Option.some.inj hfound]
  · next hfound =>
    -- nothing was found, so the entry does not answer the request that is fetched
    exact h.spawn (List.forall_mem_singleton.mpr fun hq => h.pinned.cachesMatch_isSome hq hfound)

theorem frozen_onResponse (h : Frozen s r item w) {q : Request} (hq : ¬ item.answers q = true)
    (resp : Response) : Frozen s r item (w.onResponse q resp) := by
  have hserved := h.serve (q := q) (a := some resp) fun heq => absurd (heq ▸ h.pinned.answers) hq
  have hanswered : Frozen s r item { w with
      network := ⟨q, resp⟩ :: w.network, served := (q, some resp) :: w.served } :=
    ⟨⟨h.pinned.own, h.pinned.others, h.pinned.tasks⟩, hserved.served,
      List.forall_mem_cons.mpr ⟨fun hx => absurd hx hq, h.network⟩, h.failed⟩
  unfold Worker.onResponse
  dsimp only
  split
  · exact hanswered
  · exact hanswered.spawn (List.forall_mem_singleton.mpr hq)

theorem frozen_onError (h : Frozen s r item w) {q : Request} (hq : ¬ item.answers q = true) :
    Frozen s r item (w.onError q) := by
  have hfailed : Frozen s r item { w with failed := q :: w.failed } :=
    ⟨⟨h.pinned.own, h.pinned.others, h.pinned.tasks⟩, h.served, h.network,
      List.forall_mem_cons.mpr ⟨fun hanswers => absurd hanswers hq, h.failed⟩⟩
  have hother : ¬ Threatens r item (.offline q) := fun heq : q = r => hq (heq ▸ h.pinned.answers)
  exact hfailed.spawn (List.forall_mem_singleton.mpr hother)

theorem frozen_opened (h : Frozen s r item w) : Frozen s r item w.opened :=
  h.recache (holds_openCache h.pinned.holds)

theorem frozen_onPut (h : Frozen s r item w) {x : Item} (hx : ¬ item.answers x.request = true) :
    Frozen s r item (w.onPut x) := by
  unfold Worker.onPut
  split
  · exact h.recache (holds_putAll h.pinned.holds
      (List.forall_mem_singleton.mpr (Bool.eq_false_iff.mpr hx)))
  · exact frozen_opened h

theorem frozen_onKeys (h : Frozen s r item w) : Frozen s r item w.onKeys := by
  refine h.spawn fun task htask => ?_
  obtain ⟨key, hkey, rfl⟩ := List.mem_map.mp htask
  have hother : key ≠ cacheName := of_decide_eq_true (List.mem_filter.mp hkey).2
  exact hother

theorem frozen_resumes (h : Frozen s r item w) {task : Task} (htask : ¬ Threatens r item task)
    (hresumes : Resumes origin w task w') : Frozen s r item w' := by
  cases hresumes with
  | matched q => exact frozen_onMatch h q
  | responded q resp => exact frozen_onResponse h htask resp
  | errored q => exact frozen_onError h htask
  | offline q => exact h.serve fun heq => absurd heq htask
  | stored x => exact frozen_onPut h htask
  | unstored x => exact frozen_opened h
  | added responses | unadded => exact absurd trivial htask
  | listed => exact frozen_onKeys h
  | deleted key => exact h.recache (holds_deleteCache h.pinned.holds htask)

theorem not_threatens_of_starts {l : WorkerLabel} {task : Task} (h : Starts origin l task)
    (hok : NoInstall w l) : ¬ Threatens r item task := by
  cases l with
  | install => exact hok.elim
  | activate | fetch q =>
    cases task with
    | listing | matching q => exact not_false
    | _ => exact h.elim
  | settle i outcome => exact h.elim

theorem frozen_step {l : WorkerLabel} (h : Frozen s r item w) (hok : NoInstall w l)
    (hstep : w.step origin l = some w') : Frozen s r item w' := by
  obtain ⟨task, hstarts, rfl⟩ | rfl | ⟨i, task, htask, hresumes⟩ := step_cases hstep
  · exact h.spawn (List.forall_mem_singleton.mpr (not_threatens_of_starts hstarts hok))
  · exact h
  · exact frozen_resumes (h.drop i) (h.pinned.tasks task (List.mem_of_getElem? htask)) hresumes

/-- An entry of the worker's cache is never refreshed: in every run without another install,
    whatever fetches, activations and network answers it has, each answer to the request is the
    entry's response, and the network is asked for nothing that the entry answers. -/
theorem pinned_run (origin : String) {ls : List WorkerLabel}
    (h : Reaches (Worker.step origin) NoInstall s ls w) (hpinned : Pinned r item s) :
    Frozen s r item w ∧ cachesMatch w.caches r = some item := by
  have hfrozen := h.invariant (Frozen s r item) ⟨hpinned, fun _ ha => .inl ha, fun _ hx _ => hx,
    fun _ hq _ => hq⟩ fun _ _ _ hs hok hstep => frozen_step hs hok hstep
  exact ⟨hfrozen, hfrozen.pinned.cachesMatch_eq⟩

/-- The script is asked for again, and another page. -/
def secondVisit : List WorkerLabel :=
  [.fetch script.request, .activate, .settle 0 .done,
    .fetch { method := "GET", url := "https://shop/orders" }, .settle 1 .done, .settle 1 .failed,
    .settle 1 .done, .settle 0 .done]

/-- After the first visit. -/
def visited : Worker where
  caches := ⟨[(cacheName, [script])], List.nodup_singleton _⟩
  served := [(script.request, some script.response)]
  network := [script]

theorem visited_pinned : Pinned script.request script visited where
  own := ⟨[script], List.mem_cons_self, rfl⟩
  others _ hc hname := absurd (congrArg Prod.fst (List.mem_singleton.mp hc)) hname
  tasks _ htask := absurd htask List.not_mem_nil

theorem pinned_run_secondVisit :
    ∃ w, runFrom (Worker.step "https://shop") visited secondVisit = some w ∧ w.served.length = 3 ∧
      Frozen visited script.request script w ∧
        cachesMatch w.caches script.request = some script := by
  have hok : AllSteps (Worker.step "https://shop") NoInstall visited secondVisit :=
    allSteps_of_forall (fun _ l hl => by revert l; simp [secondVisit, NoInstall]) visited
  obtain ⟨w, hreaches, hserved⟩ := reaches_where (P := fun w : Worker => w.served.length = 3) hok
    ⟨_, rfl, rfl⟩
  exact ⟨w, hreaches.runFrom, hserved, pinned_run "https://shop" hreaches visited_pinned⟩

end Freezing

/-! ## Activation -/

/-- Every cache but the worker's is about to be deleted. -/
def Activated (w : Worker) : Prop :=
  ∀ c ∈ w.caches.rows, c.1 = cacheName ∨ .deleting c.1 ∈ w.tasks

/-- What was pending still is, and only the worker's cache can be new. -/
structure Keeps (w w' : Worker) : Prop where
  tasks : w.tasks ⊆ w'.tasks
  caches : ∀ c ∈ w'.caches.rows, c.1 = cacheName ∨ ∃ c' ∈ w.caches.rows, c'.1 = c.1

section Activation

variable {origin : String} {s w w' : Worker}

theorem keeps_of_caches (htasks : w.tasks ⊆ w'.tasks) (hcaches : w'.caches = w.caches) :
    Keeps w w' := ⟨htasks, fun c hc => .inr ⟨c, hcaches ▸ hc, rfl⟩⟩

theorem keeps_spawn (w : Worker) (tasks : List Task) : Keeps w (w.spawn tasks) :=
  keeps_of_caches (List.subset_append_left _ _) rfl

theorem keeps_onMatch (w : Worker) (r : Request) : Keeps w (w.onMatch r) := by
  unfold Worker.onMatch
  split
  · exact keeps_of_caches (List.Subset.refl _) rfl
  · exact keeps_spawn w _

theorem keeps_onResponse (w : Worker) (r : Request) (resp : Response) :
    Keeps w (w.onResponse r resp) := by
  unfold Worker.onResponse
  dsimp only
  split
  · exact keeps_of_caches (List.Subset.refl _) rfl
  · exact keeps_of_caches (List.subset_append_left _ _) rfl

theorem keeps_opened (w : Worker) : Keeps w w.opened := by
  refine ⟨List.Subset.refl _, fun c hc => ?_⟩
  rcases mem_openCache hc with hmem | rfl
  · exact .inr ⟨c, hmem, rfl⟩
  · exact .inl rfl

theorem keeps_putAll {items : List Item} (htasks : w.tasks ⊆ w'.tasks)
    (hcaches : w'.caches = putAll w.caches items) : Keeps w w' := by
  refine ⟨htasks, fun c hc => ?_⟩
  rcases mem_putAll (hcaches ▸ hc) with ⟨-, hmem⟩ | ⟨hname, -⟩
  · exact .inr ⟨c, hmem, rfl⟩
  · exact .inl hname

theorem keeps_onPut (w : Worker) (item : Item) : Keeps w (w.onPut item) := by
  unfold Worker.onPut
  split
  · exact keeps_putAll (List.Subset.refl _) rfl
  · exact keeps_opened w

theorem keeps_addAll (w : Worker) (responses : List Response) :
    Keeps w (addAll origin w responses) := by
  unfold addAll
  dsimp only
  split
  · exact keeps_putAll (List.Subset.refl _) rfl
  · exact keeps_opened w

theorem keeps_onDelete (w : Worker) (key : String) : Keeps w (w.onDelete key) :=
  ⟨List.Subset.refl _, fun c hc => .inr ⟨c, List.mem_of_mem_filter hc, rfl⟩⟩

theorem keeps_resumes {task : Task} (h : Resumes origin w task w') : Keeps w w' := by
  cases h with
  | matched r => exact keeps_onMatch w r
  | responded r resp => exact keeps_onResponse w r resp
  | errored r => exact keeps_of_caches (List.subset_append_left _ _) rfl
  | offline r => exact keeps_of_caches (List.Subset.refl _) rfl
  | stored item => exact keeps_onPut w item
  | unstored item => exact keeps_opened w
  | added responses => exact keeps_addAll w responses
  | unadded => exact keeps_opened w
  | listed => exact keeps_spawn w _
  | deleted key => exact keeps_onDelete w key

/-- A deletion that is done has removed its cache. -/
theorem deleted_resumes {key : String} (h : Resumes origin w (.deleting key) w') :
    ∀ c ∈ w'.caches.rows, c.1 ≠ key := by
  cases h
  exact fun c hc => of_decide_eq_true (List.mem_filter.mp hc).2

theorem activated_step {l : WorkerLabel} (h : Activated w) (hstep : w.step origin l = some w') :
    Activated w' := by
  obtain ⟨task, -, rfl⟩ | rfl | ⟨i, task, htask, hresumes⟩ := step_cases hstep
  · exact fun c hc => (h c hc).imp_right fun hdeleting => List.mem_append_left _ hdeleting
  · exact h
  · obtain ⟨hi, rfl⟩ := List.getElem?_eq_some_iff.mp htask
    have hkeeps := keeps_resumes hresumes
    intro c hc
    rcases hkeeps.caches c hc with hname | ⟨c', hc', heq⟩
    · exact .inl hname
    · refine (h c' hc').imp (fun hname => heq ▸ hname) fun hdeleting => hkeeps.tasks ?_
      rw [heq] at hdeleting
      rcases List.mem_cons.mp ((List.getElem_cons_eraseIdx_perm hi).mem_iff.mpr hdeleting)
        with hself | hrest
      · rw [← hself] at hresumes
        exact absurd rfl (deleted_resumes hresumes c hc)
      · exact hrest

/-- Once an activation has read the keys and its deletions are done, whatever else happened on the
    way, the worker's cache is the only one that can be left. -/
theorem activated_run (origin : String) {i : ℕ} {ls : List WorkerLabel} {u : Worker}
    (hlisting : s.tasks[i]? = some .listing) (hstep : s.step origin (.settle i .done) = some u)
    (h : Reaches (Worker.step origin) anyStep u ls w) (hdone : ∀ key, .deleting key ∉ w.tasks) :
    ∀ c ∈ w.caches.rows, c.1 = cacheName := by
  have hactivated : Activated u := by
    simp only [Worker.step, hlisting] at hstep
    obtain rfl := Option.some.inj hstep
    intro c hc
    by_cases hname : c.1 = cacheName
    · exact .inl hname
    · refine .inr (List.mem_append_right _ (List.mem_map_of_mem (List.mem_filter.mpr ⟨?_, ?_⟩)))
      · exact List.mem_map_of_mem hc
      · exact decide_eq_true hname
  have hend := h.invariant Activated hactivated fun _ _ _ hs _ hstep => activated_step hs hstep
  exact fun c hc => (hend c hc).resolve_right (hdone c.1)

/-- The cache of an earlier version. -/
def oldCaches : Caches := ⟨[("cloudscale-v0", [script])], List.nodup_singleton _⟩

def activating : Worker := { caches := oldCaches, tasks := [.listing] }

def deletingOld : Worker := { caches := oldCaches, tasks := [.deleting "cloudscale-v0"] }

theorem activated_run_oldCaches : ∃ w,
    Worker.step "https://shop" activating (.settle 0 .done) = some deletingOld ∧
      runFrom (Worker.step "https://shop") deletingOld
        [.install, .settle 1 .failed, .settle 0 .done] = some w ∧
      w.caches.rows.length = 1 ∧ ∀ c ∈ w.caches.rows, c.1 = cacheName := by
  have hrun : runFrom (Worker.step "https://shop") deletingOld
      [.install, .settle 1 .failed, .settle 0 .done] = some _ := rfl
  exact ⟨_, rfl, hrun, rfl, activated_run "https://shop" (s := activating) (i := 0) rfl rfl
    (reaches_run hrun) fun key hkey => absurd hkey List.not_mem_nil⟩

end Activation

end CloudScale.Frontend.ServiceWorker
