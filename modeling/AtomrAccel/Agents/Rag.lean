import AtomrAccel.Agents.EmbeddingCache
import AtomrAccel.Agents.VectorIndex
import AtomrAccel.Lib.Transition

/-!
# `RagPipeline`: queries over a shared cache and index

Every query runs in a task of its own: it asks the embedding cache, embeds the text on a miss and
inserts the embedding, asks the index, and hands what it finds to the language model.  The tasks
share the cache and the index with each other and with other clients, every ask can time out, and a
message whose asker has given up is handled all the same.  The other clients insert into the cache
what the embedding function gives, and nothing else.

* `RagConfig`, `Phase`, `Task`, `World`, `step`: the tasks, the two actors and their mailboxes;
* `uncached`: what the pipeline is for;
* `Consistent`: an embedding that was computed for a text with the same hash;
* `Inv`, `inv_step`: the invariant of all interleavings;
* `answer_eq_uncached`: an answer is the uncached one over the index at some moment of the query's
  life, or a timeout, as long as no two of the texts asked about or embedded have the same hash.
-/

namespace AtomrAccel

namespace Agents

namespace Rag

open CpuVectorIndex Transition

variable {F : Type}

/-- A query, without its reply channel. -/
structure RagQuery where
  text : String
  topK : ℕ
  deriving DecidableEq, Repr

/-- What a query is answered with. -/
structure RagAnswer where
  answer : String
  sources : List UInt64
  embeddingWasCached : Bool
  deriving DecidableEq, Repr

/-- `embedding` and `llm` are the user's functions; the actors are parts of the `World`. -/
structure RagConfig (F : Type) where
  embedding : String → Except GpuError (List F)
  llm : String → List UInt64 → Except GpuError String

/-- `text.as_bytes().to_vec()` -/
def key (text : String) : Key := text.toUTF8.data.toList

/-- How far `run_rag` has come, with the replies that have arrived. -/
inductive Phase (F : Type)
  | started
  | getting (reply : Option (Option (List F)))
  | inserting (v : List F) (replied : Bool)
  | searching (v : List F) (wasCached : Bool)
      (reply : Option (Except GpuError (List (UInt64 × F))))
  | finished (result : Except GpuError RagAnswer)

/-- A query and the entries of the index when it arrived. -/
structure Task (F : Type) where
  query : RagQuery
  phase : Phase F
  indexAt : List (VectorEntry F)

/-- The two actors with their mailboxes, where a message of a task carries its number; the tasks;
and the texts that tasks and other clients have embedded. -/
structure World (F : Type) where
  cache : EmbeddingCache (List F)
  cacheBox : List (EmbeddingCacheMsg (List F) × Option ℕ)
  index : CpuVectorIndex F
  indexBox : List (VectorIndexMsg F × Option ℕ)
  tasks : List (Task F)
  embedded : List String

/-- The steps of the system. -/
inductive Label (F : Type)
  | query (q : RagQuery)
  | resume (t : ℕ)
  | timeout (t : ℕ) (text : String)
  | cacheTurn
  | indexTurn
  /-- another client embeds a text and inserts the embedding -/
  | share (text : String)
  /-- other messages of other clients -/
  | toCache (msg : EmbeddingCacheMsg (List F))
  | toIndex (msg : VectorIndexMsg F)

variable (ops : ScoreOps F) (hashKey : Key → UInt64) (cfg : RagConfig F)

namespace World

/-- The task `t` goes on to a phase. -/
def setPhase (s : World F) (t : ℕ) (phase : Phase F) : World F :=
  { s with tasks := s.tasks.modify t fun task => { task with phase := phase } }

/-- The task `t` sends the cache a message. -/
def askCache (s : World F) (t : ℕ) (msg : EmbeddingCacheMsg (List F)) : World F :=
  { s with cacheBox := s.cacheBox ++ [(msg, some t)] }

/-- The task goes on to its search. -/
def askIndex (s : World F) (t : ℕ) (q : RagQuery) (v : List F) (wasCached : Bool) : World F :=
  { s.setPhase t (.searching v wasCached none) with
    indexBox := s.indexBox ++ [(.search v (max q.topK 1), some t)] }

/-- The language model is asked about what was found. -/
def answer (q : RagQuery) (wasCached : Bool)
    (found : Except GpuError (List (UInt64 × F))) : Except GpuError RagAnswer :=
  found.bind fun scored =>
    let sources := scored.map Prod.fst
    (cfg.llm q.text sources).map fun answer => ⟨answer, sources, wasCached⟩

/-- A task goes on with the reply it has been waiting for. -/
def resume (s : World F) (t : ℕ) (task : Task F) : Option (World F) :=
  match task.phase with
  | .started => some ((s.setPhase t (.getting none)).askCache t (.get (key task.query.text)))
  | .getting none => none
  | .getting (some (some v)) => some (s.askIndex t task.query v true)
  | .getting (some none) =>
    match cfg.embedding task.query.text with
    | .error e => some (s.setPhase t (.finished (.error e)))
    | .ok v =>
      let s := (s.setPhase t (.inserting v false)).askCache t (.insert (key task.query.text) v)
      some { s with embedded := s.embedded ++ [task.query.text] }
  | .inserting _ false => none
  | .inserting v true => some (s.askIndex t task.query v false)
  | .searching _ _ none => none
  | .searching _ wasCached (some found) =>
    some (s.setPhase t (.finished (answer cfg task.query wasCached found)))
  | .finished _ => none

/-- An ask ends with an error; that of the insertion is ignored. -/
def timeout (s : World F) (t : ℕ) (task : Task F) (text : String) : Option (World F) :=
  match task.phase with
  | .getting none =>
    some (s.setPhase t (.finished (.error (.unrecoverable ("rag: embed cache get: " ++ text)))))
  | .inserting v false => some (s.askIndex t task.query v false)
  | .searching _ _ none =>
    some (s.setPhase t (.finished (.error (.unrecoverable ("rag: vec search: " ++ text)))))
  | .started | .getting (some _) | .inserting _ true | .searching _ _ (some _) | .finished _ => none

end World

/-- A reply of the cache reaches a task that still waits for it. -/
def Phase.onCache (reply : EmbeddingCacheReply (List F)) : Phase F → Phase F
  | .getting none =>
    match reply with
    | .got value => .getting (some value)
    | _ => .getting none
  | .inserting v false =>
    match reply with
    | .inserted => .inserting v true
    | _ => .inserting v false
  | phase => phase

/-- A search that waits for the index has its reply. -/
def Phase.onIndex (reply : VectorIndexReply F) : Phase F → Phase F
  | .searching v wasCached none =>
    match reply with
    | .found found => .searching v wasCached (some found)
    | _ => .searching v wasCached none
  | phase => phase

/-- Other clients insert into the cache by `share` only. -/
def isInsert : EmbeddingCacheMsg (List F) → Bool
  | .insert _ _ => true
  | .get _ | .invalidate _ | .stats => false

/-- The task of a message, if it has one, gets the reply. -/
def deliver (tasks : List (Task F)) (owner : Option ℕ) (f : Phase F → Phase F) : List (Task F) :=
  owner.elim tasks fun t => tasks.modify t fun task => { task with phase := f task.phase }

/-- One step of the system. -/
def step (s : World F) : Label F → Option (World F)
  | .query q => some { s with tasks := s.tasks ++ [⟨q, .started, s.index.entries⟩] }
  | .resume t => s.tasks[t]?.bind (s.resume cfg t)
  | .timeout t text => s.tasks[t]?.bind (s.timeout t · text)
  | .cacheTurn =>
    match s.cacheBox with
    | [] => none
    | (msg, owner) :: box =>
      let (cache, reply) := s.cache.handle hashKey msg
      some { s with
        cache := cache
        cacheBox := box
        tasks := deliver s.tasks owner (Phase.onCache reply) }
  | .indexTurn =>
    match s.indexBox with
    | [] => none
    | (msg, owner) :: box =>
      let (index, reply) := s.index.handle ops msg
      some { s with
        index := index
        indexBox := box
        tasks := deliver s.tasks owner (Phase.onIndex reply) }
  | .share text =>
    match cfg.embedding text with
    | .error _ => none
    | .ok v =>
      some { s with
        cacheBox := s.cacheBox ++ [(.insert (key text) v, none)]
        embedded := s.embedded ++ [text] }
  | .toCache msg =>
    if isInsert msg then none else some { s with cacheBox := s.cacheBox ++ [(msg, none)] }
  | .toIndex msg => some { s with indexBox := s.indexBox ++ [(msg, none)] }

/-- An empty cache and an index with some entries. -/
def system (capacity : ℕ) (index : CpuVectorIndex F) : System (World F) (Label F) where
  init := ⟨EmbeddingCache.new capacity, [], index, [], [], []⟩
  step := step ops hashKey cfg

/-! ### What the pipeline is for -/

/-- The answer from an embedding and the entries of the index. -/
def answerWith (dim : ℕ) (entries : List (VectorEntry F)) (q : RagQuery) (v : List F) :
    Except GpuError (String × List UInt64) :=
  (search ops dim entries v (max q.topK 1)).bind fun scored =>
    (cfg.llm q.text (scored.map Prod.fst)).map fun answer => (answer, scored.map Prod.fst)

section Inv

/-- `v` was computed for a text that has been embedded and has the hash of `text`. -/
def Consistent (hashKey : Key → UInt64) (cfg : RagConfig F) (embedded : List String) (text : String)
    (v : List F) : Prop :=
  ∃ text' ∈ embedded, hashKey (key text') = hashKey (key text) ∧ cfg.embedding text' = .ok v

/-- What an ended task has replied. -/
def Answered (s : World F) (task : Task F) (r : Except GpuError RagAnswer) : Prop :=
  (∃ e, cfg.embedding task.query.text = .error e ∧ r = .error e) ∨
  (∃ v entries, Consistent hashKey cfg s.embedded task.query.text v ∧
    task.indexAt <+: entries ∧ entries <+: s.index.entries ∧
    r.map (fun a => (a.answer, a.sources)) =
      answerWith ops cfg s.index.dim entries task.query v) ∨
  ∃ text, r = .error (.unrecoverable ("rag: embed cache get: " ++ text)) ∨
    r = .error (.unrecoverable ("rag: vec search: " ++ text))

/-- What a task knows in each phase. -/
def Knows (s : World F) (task : Task F) : Phase F → Prop
  | .started => True
  | .getting reply => ∀ v, reply = some (some v) →
      Consistent hashKey cfg s.embedded task.query.text v
  | .inserting v _ => Consistent hashKey cfg s.embedded task.query.text v
  | .searching v _ reply => Consistent hashKey cfg s.embedded task.query.text v ∧
      ∀ found, reply = some found → ∃ entries, task.indexAt <+: entries ∧
        entries <+: s.index.entries ∧
        found = search ops s.index.dim entries v (max task.query.topK 1)
  | .finished r => Answered ops hashKey cfg s task r

/-- A task in phase `phase` has sent the search `(v, topK)`. -/
def Searched (q : RagQuery) (v : List F) (topK : ℕ) : Phase F → Prop
  | .searching v' _ _ => v' = v ∧ topK = max q.topK 1
  | .finished _ => True
  | .started | .getting _ | .inserting _ _ => False

/-- The cache and the messages to it hold embeddings of embedded texts, the messages of the tasks
are those they have sent, and each task knows what it has to in its phase. -/
structure Inv (s : World F) : Prop where
  cache : ∀ h v, s.cache.cache.lookup h = some v →
    ∃ text ∈ s.embedded, hashKey (key text) = h ∧ cfg.embedding text = .ok v
  inserts : ∀ k v owner, (EmbeddingCacheMsg.insert k v, owner) ∈ s.cacheBox →
    ∃ text ∈ s.embedded, key text = k ∧ cfg.embedding text = .ok v
  gets : ∀ k t, (EmbeddingCacheMsg.get k, some t) ∈ s.cacheBox →
    ∃ task, s.tasks[t]? = some task ∧ k = key task.query.text
  searches : ∀ v topK t, (VectorIndexMsg.search v topK, some t) ∈ s.indexBox →
    ∃ task, s.tasks[t]? = some task ∧ Searched task.query v topK task.phase
  tasks : ∀ task ∈ s.tasks, task.indexAt <+: s.index.entries ∧
    Knows ops hashKey cfg s task task.phase

variable {ops hashKey cfg} {s : World F}

theorem Consistent.mono {embedded embedded' : List String} {text : String} {v : List F}
    (h : Consistent hashKey cfg embedded text v) (hsub : embedded ⊆ embedded') :
    Consistent hashKey cfg embedded' text v := by
  obtain ⟨text', hmem, heq⟩ := h
  exact ⟨text', hsub hmem, heq⟩

/-- What a task knows stays true. -/
theorem Knows.mono {s' : World F} {task : Task F} {phase : Phase F}
    (h : Knows ops hashKey cfg s task phase) (hembedded : s.embedded ⊆ s'.embedded)
    (hdim : s'.index.dim = s.index.dim) (hentries : s.index.entries <+: s'.index.entries) :
    Knows ops hashKey cfg s' task phase := by
  cases phase with
  | started => trivial
  | getting reply => exact fun v hv => (h v hv).mono hembedded
  | inserting v replied => exact Consistent.mono h hembedded
  | searching v c reply =>
    refine ⟨h.1.mono hembedded, fun found hfound => ?_⟩
    obtain ⟨entries, hat, hnow, heq⟩ := h.2 found hfound
    exact ⟨entries, hat, hnow.trans hentries, by rw [hdim]; exact heq⟩
  | finished r =>
    rcases h with h | ⟨v, entries, hv, hat, hnow, heq⟩ | h
    · exact .inl h
    · exact .inr (.inl ⟨v, entries, hv.mono hembedded, hat, hnow.trans hentries,
        by rw [hdim]; exact heq⟩)
    · exact .inr (.inr h)

/-- A phase that a task can come to when its searches stay what they are. -/
def Later (q : RagQuery) (phase phase' : Phase F) : Prop :=
  ∀ v topK, Searched q v topK phase → Searched q v topK phase'

/-- One task changes its phase. -/
theorem Inv.modify (h : Inv ops hashKey cfg s) {t : ℕ} {f : Phase F → Phase F}
    (hlater : ∀ task, s.tasks[t]? = some task → Later task.query task.phase (f task.phase))
    (hknows : ∀ task, s.tasks[t]? = some task → Knows ops hashKey cfg s task (f task.phase)) :
    Inv ops hashKey cfg
      { s with tasks := s.tasks.modify t fun task => { task with phase := f task.phase } } := by
  have hget : ∀ {t' : ℕ} {task' : Task F}, s.tasks[t']? = some task' →
      ∃ task'' : Task F, (s.tasks.modify t fun task => { task with phase := f task.phase })[t']? =
          some task'' ∧ task''.query = task'.query ∧ Later task'.query task'.phase task''.phase := by
    intro t' task' ht'
    rw [List.getElem?_modify, ht']
    by_cases heq : t = t'
    · subst heq
      exact ⟨{ task' with phase := f task'.phase }, by simp, rfl, hlater task' ht'⟩
    · exact ⟨task', by simp [heq], rfl, fun _ _ hs => hs⟩
  refine ⟨h.cache, h.inserts, fun k t' hmsg => ?_, fun v topK t' hmsg => ?_,
    fun task' htask' => ?_⟩
  · obtain ⟨task, htask, rfl⟩ := h.gets k t' hmsg
    obtain ⟨task'', ht'', hq, -⟩ := hget htask
    exact ⟨task'', ht'', by rw [hq]⟩
  · obtain ⟨task, htask, hsearched⟩ := h.searches v topK t' hmsg
    obtain ⟨task'', ht'', hq, hlater'⟩ := hget htask
    exact ⟨task'', ht'', by rw [hq]; exact hlater' v topK hsearched⟩
  · obtain ⟨t', ht'⟩ := List.mem_iff_getElem?.1 htask'
    rw [List.getElem?_modify] at ht'
    obtain ⟨task, htask, rfl⟩ := Option.map_eq_some_iff.1 ht'
    obtain ⟨hat, hold⟩ := h.tasks task (List.mem_of_getElem? htask)
    by_cases heq : t = t'
    · subst heq
      rw [if_pos rfl]
      exact ⟨hat, Knows.mono (s := s) (hknows task htask) (List.Subset.refl _) rfl
        List.prefix_rfl⟩
    · rw [if_neg heq]
      exact ⟨hat, Knows.mono (s := s) hold (List.Subset.refl _) rfl List.prefix_rfl⟩

theorem Inv.pushCache (h : Inv ops hashKey cfg s) {msg : EmbeddingCacheMsg (List F)}
    {owner : Option ℕ}
    (hinsert : ∀ k v, msg = .insert k v →
      ∃ text ∈ s.embedded, key text = k ∧ cfg.embedding text = .ok v)
    (hget : ∀ k t, msg = .get k → owner = some t →
      ∃ task, s.tasks[t]? = some task ∧ k = key task.query.text) :
    Inv ops hashKey cfg { s with cacheBox := s.cacheBox ++ [(msg, owner)] } := by
  refine ⟨h.cache, fun k v owner' hmsg => ?_, fun k t hmsg => ?_, h.searches,
    fun task htask => ⟨(h.tasks task htask).1, Knows.mono (h.tasks task htask).2
      (List.Subset.refl _) rfl List.prefix_rfl⟩⟩
  · rcases List.mem_append.1 hmsg with hold | hnew
    · exact h.inserts k v owner' hold
    · obtain ⟨hm, -⟩ := Prod.mk.inj (List.mem_singleton.1 hnew)
      exact hinsert k v hm.symm
  · rcases List.mem_append.1 hmsg with hold | hnew
    · exact h.gets k t hold
    · obtain ⟨hm, ho⟩ := Prod.mk.inj (List.mem_singleton.1 hnew)
      exact hget k t hm.symm ho.symm

theorem Inv.pushIndex (h : Inv ops hashKey cfg s) {msg : VectorIndexMsg F} {owner : Option ℕ}
    (hsearch : ∀ v topK t, msg = .search v topK → owner = some t →
      ∃ task, s.tasks[t]? = some task ∧ Searched task.query v topK task.phase) :
    Inv ops hashKey cfg { s with indexBox := s.indexBox ++ [(msg, owner)] } := by
  refine ⟨h.cache, h.inserts, h.gets, fun v topK t hmsg => ?_,
    fun task htask => ⟨(h.tasks task htask).1, Knows.mono (h.tasks task htask).2
      (List.Subset.refl _) rfl List.prefix_rfl⟩⟩
  rcases List.mem_append.1 hmsg with hold | hnew
  · exact h.searches v topK t hold
  · obtain ⟨hm, ho⟩ := Prod.mk.inj (List.mem_singleton.1 hnew)
    exact hsearch v topK t hm.symm ho.symm

variable {t : ℕ} {task : Task F}

/-- A task sets its phase. -/
theorem Inv.setPhase (h : Inv ops hashKey cfg s) (ht : s.tasks[t]? = some task) (phase : Phase F)
    (hlater : Later task.query task.phase phase) (hknows : Knows ops hashKey cfg s task phase) :
    Inv ops hashKey cfg (s.setPhase t phase) := by
  refine h.modify (f := fun _ => phase) (fun task' ht' => ?_) fun task' ht' => ?_
  · obtain rfl : task = task' := Option.some.inj (ht.symm.trans ht')
    exact hlater
  · obtain rfl : task = task' := Option.some.inj (ht.symm.trans ht')
    exact hknows

theorem tasks_setPhase (ht : s.tasks[t]? = some task) (phase : Phase F) :
    (s.setPhase t phase).tasks[t]? = some { task with phase := phase } := by
  simp [World.setPhase, ht]

/-- One more text has been embedded. -/
theorem Inv.embed (h : Inv ops hashKey cfg s) (text : String) :
    Inv ops hashKey cfg { s with embedded := s.embedded ++ [text] } := by
  refine ⟨fun h' v hv => ?_, fun k v owner hm => ?_, h.gets, h.searches,
    fun task htask => ⟨(h.tasks task htask).1, Knows.mono (h.tasks task htask).2
      (List.subset_append_left _ _) rfl List.prefix_rfl⟩⟩
  · obtain ⟨text', htext', heq⟩ := h.cache h' v hv
    exact ⟨text', List.mem_append_left _ htext', heq⟩
  · obtain ⟨text', htext', heq⟩ := h.inserts k v owner hm
    exact ⟨text', List.mem_append_left _ htext', heq⟩

/-- A task that has not searched yet sends its search. -/
theorem Inv.askIndex (h : Inv ops hashKey cfg s) (ht : s.tasks[t]? = some task)
    (hnot : ∀ v topK, ¬ Searched task.query v topK task.phase) {v : List F}
    (hv : Consistent hashKey cfg s.embedded task.query.text v) (wasCached : Bool) :
    Inv ops hashKey cfg (s.askIndex t task.query v wasCached) := by
  have hset := h.setPhase ht (.searching v wasCached none)
    (fun v' topK hs => absurd hs (hnot v' topK)) ⟨hv, nofun⟩
  refine hset.pushIndex fun v' topK t' hm ho => ?_
  obtain ⟨rfl, rfl⟩ := VectorIndexMsg.search.inj hm
  obtain rfl := Option.some.inj ho
  exact ⟨_, tasks_setPhase ht _, rfl, rfl⟩

/-! ### The steps -/

theorem lookup_evict {c : EmbeddingCache (List F)} {h' h : UInt64} {v : List F}
    (hv : (c.evict h').cache.lookup h = some v) : c.cache.lookup h = some v := by
  unfold EmbeddingCache.evict at hv
  split at hv
  · split at hv
    · exact hv
    · rename_i victim rest hrest
      by_cases heq : h = victim
      · subst heq
        rw [AList.lookup_erase] at hv
        cases hv
      · rwa [AList.lookup_erase_ne heq] at hv
  · exact hv

/-- What the cache holds after a message it held before, or the message inserts it. -/
theorem lookup_handle {c : EmbeddingCache (List F)} {msg : EmbeddingCacheMsg (List F)} {h : UInt64}
    {v : List F} (hv : (c.handle hashKey msg).1.cache.lookup h = some v) :
    c.cache.lookup h = some v ∨ ∃ k, msg = .insert k v ∧ hashKey k = h := by
  cases msg with
  | get k =>
    cases hlook : c.cache.lookup (hashKey k) <;>
      simp only [EmbeddingCache.handle, hlook, EmbeddingCache.touch] at hv <;> exact .inl hv
  | insert k value =>
    by_cases heq : h = hashKey k
    · subst heq
      simp only [EmbeddingCache.handle, EmbeddingCache.touch, AList.lookup_insert,
        Option.some.injEq] at hv
      exact .inr ⟨k, by rw [hv], rfl⟩
    · simp only [EmbeddingCache.handle, EmbeddingCache.touch, AList.lookup_insert_ne heq] at hv
      exact .inl (lookup_evict hv)
  | invalidate k =>
    by_cases hold : hashKey k ∈ c.cache
    · simp only [EmbeddingCache.handle, if_pos hold] at hv
      by_cases heq : h = hashKey k
      · subst heq
        rw [AList.lookup_erase] at hv
        cases hv
      · rw [AList.lookup_erase_ne heq] at hv
        exact .inl hv
    · simp only [EmbeddingCache.handle, if_neg hold] at hv
      exact .inl hv
  | stats => exact .inl hv

/-- A hit replies what the cache holds under the hash of the key. -/
theorem got_of_handle {c : EmbeddingCache (List F)} {msg : EmbeddingCacheMsg (List F)} {v : List F}
    (hv : (c.handle hashKey msg).2 = .got (some v)) :
    ∃ k, msg = .get k ∧ c.cache.lookup (hashKey k) = some v := by
  cases msg with
  | get k =>
    cases hlook : c.cache.lookup (hashKey k) with
    | none =>
      simp only [EmbeddingCache.handle, hlook] at hv
      cases hv
    | some v' =>
      simp only [EmbeddingCache.handle, hlook] at hv
      cases hv
      exact ⟨k, rfl, hlook⟩
  | insert k value => cases hv
  | invalidate k =>
    by_cases hold : hashKey k ∈ c.cache
    · simp only [EmbeddingCache.handle, if_pos hold] at hv
      cases hv
    · simp only [EmbeddingCache.handle, if_neg hold] at hv
      cases hv
  | stats => cases hv

theorem found_of_handle {index : CpuVectorIndex F} {msg : VectorIndexMsg F}
    {found : Except GpuError (List (UInt64 × F))} (h : (index.handle ops msg).2 = .found found) :
    ∃ query topK, msg = .search query topK ∧
      found = search ops index.dim index.entries query topK := by
  cases msg with
  | search query topK => exact ⟨query, topK, rfl, (VectorIndexReply.found.inj h).symm⟩
  | insert entry =>
    simp only [CpuVectorIndex.handle] at h
    split_ifs at h
  | stats => cases h

theorem Later.onCache (reply : EmbeddingCacheReply (List F)) (q : RagQuery) (phase : Phase F) :
    Later q phase (phase.onCache reply) := by
  intro v topK hs
  cases phase with
  | searching v' c r => exact hs
  | finished r => trivial
  | started => exact hs.elim
  | getting r => exact hs.elim
  | inserting v' r => exact hs.elim

theorem Later.onIndex (reply : VectorIndexReply F) (q : RagQuery) (phase : Phase F) :
    Later q phase (phase.onIndex reply) := by
  intro v topK hs
  cases phase with
  | searching v' c r => cases r <;> cases reply <;> exact hs
  | finished r => trivial
  | started => exact hs.elim
  | getting r => exact hs.elim
  | inserting v' r => exact hs.elim

/-- The cache takes a turn. -/
theorem Inv.cacheTurn (h : Inv ops hashKey cfg s) {msg : EmbeddingCacheMsg (List F)}
    {owner : Option ℕ} {box : List (EmbeddingCacheMsg (List F) × Option ℕ)}
    (hbox : s.cacheBox = (msg, owner) :: box) :
    Inv ops hashKey cfg { s with
      cache := (s.cache.handle hashKey msg).1
      cacheBox := box
      tasks := deliver s.tasks owner (Phase.onCache (s.cache.handle hashKey msg).2) } := by
  have hin : (msg, owner) ∈ s.cacheBox := by simp [hbox]
  -- the cache and the mailbox first, then the task that gets the reply
  have hcache : Inv ops hashKey cfg
      { s with cache := (s.cache.handle hashKey msg).1, cacheBox := box } := by
    refine ⟨fun h' v hv => ?_, fun k v owner' hm => ?_, fun k t hm => ?_, h.searches,
      fun task htask => ⟨(h.tasks task htask).1, Knows.mono (h.tasks task htask).2
        (List.Subset.refl _) rfl List.prefix_rfl⟩⟩
    · rcases lookup_handle hv with hold | ⟨k, rfl, rfl⟩
      · exact h.cache h' v hold
      · obtain ⟨text, htext, rfl, hembedding⟩ := h.inserts k v owner hin
        exact ⟨text, htext, rfl, hembedding⟩
    · exact h.inserts k v owner' (by rw [hbox]; exact List.mem_cons_of_mem _ hm)
    · exact h.gets k t (by rw [hbox]; exact List.mem_cons_of_mem _ hm)
  cases owner with
  | none => exact hcache
  | some t =>
    refine hcache.modify (fun task' _ => Later.onCache _ _ _) fun task' ht' => ?_
    have hknows := (hcache.tasks task' (List.mem_of_getElem? ht')).2
    cases hphase : task'.phase with
    | getting r =>
      cases r with
      | some r => rw [hphase] at hknows; exact hknows
      | none =>
        cases hreply : (s.cache.handle hashKey msg).2 with
        | got value =>
          intro v hv
          obtain rfl : value = some v := Option.some.inj hv
          obtain ⟨k, rfl, hlook⟩ := got_of_handle hreply
          obtain ⟨task'', ht'', rfl⟩ := h.gets k t hin
          obtain rfl : task'' = task' := Option.some.inj (ht''.symm.trans ht')
          exact h.cache _ v hlook
        | inserted => exact nofun
        | invalidated removed => exact nofun
        | stats stats => exact nofun
    | inserting v r =>
      rw [hphase] at hknows
      cases r with
      | true => exact hknows
      | false => cases (s.cache.handle hashKey msg).2 <;> exact hknows
    | started => trivial
    | searching v c r => rw [hphase] at hknows; exact hknows
    | finished r => rw [hphase] at hknows; exact hknows

/-- The index takes a turn. -/
theorem Inv.indexTurn (h : Inv ops hashKey cfg s) {msg : VectorIndexMsg F}
    {owner : Option ℕ} {box : List (VectorIndexMsg F × Option ℕ)}
    (hbox : s.indexBox = (msg, owner) :: box) :
    Inv ops hashKey cfg { s with
      index := (s.index.handle ops msg).1
      indexBox := box
      tasks := deliver s.tasks owner (Phase.onIndex (s.index.handle ops msg).2) } := by
  have hin : (msg, owner) ∈ s.indexBox := by simp [hbox]
  have hdim : (s.index.handle ops msg).1.dim = s.index.dim := by rw [handle_fst]
  have hentries : s.index.entries <+: (s.index.handle ops msg).1.entries := by
    rw [handle_fst]
    exact List.prefix_append _ _
  have hindex : Inv ops hashKey cfg
      { s with index := (s.index.handle ops msg).1, indexBox := box } := by
    refine ⟨h.cache, h.inserts, h.gets, fun v topK t hm => ?_,
      fun task htask => ⟨(h.tasks task htask).1.trans hentries, Knows.mono (h.tasks task htask).2
        (List.Subset.refl _) hdim hentries⟩⟩
    exact h.searches v topK t (by rw [hbox]; exact List.mem_cons_of_mem _ hm)
  cases owner with
  | none => exact hindex
  | some t =>
    refine hindex.modify (fun task' _ => Later.onIndex _ _ _) fun task' ht' => ?_
    have hknows := (hindex.tasks task' (List.mem_of_getElem? ht')).2
    cases hphase : task'.phase with
    | searching v c r =>
      rw [hphase] at hknows
      cases r with
      | some r => exact hknows
      | none =>
        cases hreply : (s.index.handle ops msg).2 with
        | found found =>
          refine ⟨hknows.1, fun found' hfound => ?_⟩
          obtain rfl : found = found' := Option.some.inj hfound
          obtain ⟨query, topK, rfl, rfl⟩ := found_of_handle hreply
          obtain ⟨task'', ht'', hsearched⟩ := h.searches query topK t hin
          obtain rfl : task'' = task' := Option.some.inj (ht''.symm.trans ht')
          rw [hphase] at hsearched
          obtain ⟨rfl, rfl⟩ := hsearched
          exact ⟨s.index.entries, (h.tasks task'' (List.mem_of_getElem? ht'')).1, hentries, rfl⟩
        | inserted r => exact hknows
        | stats n => exact hknows
    | getting r => rw [hphase] at hknows; exact hknows
    | inserting v r => rw [hphase] at hknows; exact hknows
    | started => trivial
    | finished r => rw [hphase] at hknows; exact hknows

/-- A task goes on. -/
theorem Inv.resume {s' : World F} (h : Inv ops hashKey cfg s) (ht : s.tasks[t]? = some task)
    (hs : s.resume cfg t task = some s') : Inv ops hashKey cfg s' := by
  have hknows := (h.tasks task (List.mem_of_getElem? ht)).2
  obtain ⟨q, phase, indexAt⟩ := task
  cases phase with
  | started =>
    obtain rfl := Option.some.inj hs
    refine (h.setPhase ht (.getting none) (fun v topK hsearched => hsearched.elim)
      (fun v hv => nomatch hv)).pushCache nofun fun k t' hm ho => ?_
    obtain rfl := EmbeddingCacheMsg.get.inj hm
    obtain rfl := Option.some.inj ho
    exact ⟨_, tasks_setPhase ht _, rfl⟩
  | getting reply =>
    cases reply with
    | none => cases hs
    | some reply =>
      cases reply with
      | some v =>
        obtain rfl := Option.some.inj hs
        exact h.askIndex ht (fun _ _ => id) (hknows v rfl) true
      | none =>
        cases hembedding : cfg.embedding q.text with
        | error e =>
          simp only [World.resume, hembedding, Option.some.injEq] at hs
          subst hs
          exact h.setPhase ht _ (fun v topK _ => trivial) (.inl ⟨e, hembedding, rfl⟩)
        | ok v =>
          simp only [World.resume, hembedding, Option.some.injEq] at hs
          subst hs
          -- the text is embedded first
          have hembedded := h.embed q.text
          have htext : q.text ∈ s.embedded ++ [q.text] := by simp
          refine (hembedded.setPhase ht (.inserting v false)
            (fun v topK hsearched => hsearched.elim) ⟨q.text, htext, rfl, hembedding⟩).pushCache
            (fun k v' hm => ?_) nofun
          obtain ⟨rfl, rfl⟩ := EmbeddingCacheMsg.insert.inj hm
          exact ⟨q.text, htext, rfl, hembedding⟩
  | inserting v replied =>
    cases replied with
    | false => cases hs
    | true =>
      obtain rfl := Option.some.inj hs
      exact h.askIndex ht (fun _ _ => id) hknows false
  | searching v c reply =>
    cases reply with
    | none => cases hs
    | some found =>
      obtain rfl := Option.some.inj hs
      refine h.setPhase ht _ (fun v topK _ => trivial) (.inr (.inl ?_))
      obtain ⟨entries, hat, hnow, heq⟩ := hknows.2 found rfl
      refine ⟨v, entries, hknows.1, hat, hnow, ?_⟩
      have hfound : search ops s.index.dim entries v (max q.topK 1) = found := heq.symm
      unfold World.answer answerWith
      rw [show search ops s.index.dim entries v (max (Task.query ⟨q, _, indexAt⟩).topK 1) = found
        from hfound]
      cases found with
      | error e => rfl
      | ok scored =>
        show Except.map _ (Except.map _ (cfg.llm q.text (scored.map Prod.fst))) = Except.map _ _
        cases cfg.llm q.text (scored.map Prod.fst) <;> rfl
  | finished r => cases hs

/-- An ask times out. -/
theorem Inv.timeout {s' : World F} {text : String} (h : Inv ops hashKey cfg s)
    (ht : s.tasks[t]? = some task) (hs : s.timeout t task text = some s') :
    Inv ops hashKey cfg s' := by
  have hknows := (h.tasks task (List.mem_of_getElem? ht)).2
  obtain ⟨q, phase, indexAt⟩ := task
  cases phase with
  | started => cases hs
  | getting reply =>
    cases reply with
    | none =>
      obtain rfl := Option.some.inj hs
      exact h.setPhase ht _ (fun v topK _ => trivial) (.inr (.inr ⟨text, .inl rfl⟩))
    | some reply => cases hs
  | inserting v replied =>
    cases replied with
    | false =>
      obtain rfl := Option.some.inj hs
      exact h.askIndex ht (fun _ _ => id) hknows false
    | true => cases hs
  | searching v c reply =>
    cases reply with
    | none =>
      obtain rfl := Option.some.inj hs
      exact h.setPhase ht _ (fun v topK _ => trivial) (.inr (.inr ⟨text, .inr rfl⟩))
    | some found => cases hs
  | finished r => cases hs

/-- A query arrives. -/
theorem Inv.query (h : Inv ops hashKey cfg s) (q : RagQuery) :
    Inv ops hashKey cfg { s with tasks := s.tasks ++ [⟨q, .started, s.index.entries⟩] } := by
  have hget : ∀ {t : ℕ} {task : Task F}, s.tasks[t]? = some task →
      (s.tasks ++ [⟨q, .started, s.index.entries⟩])[t]? = some task := by
    intro t task ht
    rw [List.getElem?_append_left (List.getElem?_eq_some_iff.1 ht).1, ht]
  refine ⟨h.cache, h.inserts, fun k t hm => ?_, fun v topK t hm => ?_, fun task htask => ?_⟩
  · obtain ⟨task, ht, rfl⟩ := h.gets k t hm
    exact ⟨task, hget ht, rfl⟩
  · obtain ⟨task, ht, hsearched⟩ := h.searches v topK t hm
    exact ⟨task, hget ht, hsearched⟩
  · rcases List.mem_append.1 htask with hold | hnew
    · exact ⟨(h.tasks task hold).1, Knows.mono (h.tasks task hold).2 (List.Subset.refl _) rfl
        List.prefix_rfl⟩
    · rw [List.mem_singleton.1 hnew]
      exact ⟨List.prefix_rfl, trivial⟩

theorem inv_step {s' : World F} {l : Label F} (h : Inv ops hashKey cfg s)
    (hs : step ops hashKey cfg s l = some s') : Inv ops hashKey cfg s' := by
  cases l with
  | query q =>
    obtain rfl := Option.some.inj hs
    exact h.query q
  | resume t =>
    obtain ⟨task, ht, hresume⟩ := Option.bind_eq_some_iff.1 hs
    exact h.resume ht hresume
  | timeout t text =>
    obtain ⟨task, ht, htimeout⟩ := Option.bind_eq_some_iff.1 hs
    exact h.timeout ht htimeout
  | cacheTurn =>
    obtain ⟨cache, cacheBox, index, indexBox, tasks, embedded⟩ := s
    cases cacheBox with
    | nil => cases hs
    | cons head box =>
      obtain rfl := Option.some.inj hs
      exact h.cacheTurn rfl
  | indexTurn =>
    obtain ⟨cache, cacheBox, index, indexBox, tasks, embedded⟩ := s
    cases indexBox with
    | nil => cases hs
    | cons head box =>
      obtain rfl := Option.some.inj hs
      exact h.indexTurn rfl
  | share text =>
    cases hembedding : cfg.embedding text with
    | error e =>
      simp only [step, hembedding] at hs
      cases hs
    | ok v =>
      simp only [step, hembedding, Option.some.injEq] at hs
      subst hs
      refine (h.embed text).pushCache (fun k v' hm => ?_) nofun
      obtain ⟨rfl, rfl⟩ := EmbeddingCacheMsg.insert.inj hm
      exact ⟨text, List.mem_append_right _ (List.mem_singleton_self _), rfl, hembedding⟩
  | toCache msg =>
    simp only [step] at hs
    split_ifs at hs with hinsert
    obtain rfl := Option.some.inj hs
    refine h.pushCache (fun k v hm => ?_) nofun
    subst hm
    exact absurd rfl hinsert
  | toIndex msg =>
    obtain rfl := Option.some.inj hs
    exact h.pushIndex nofun

theorem inv_init (capacity : ℕ) (index : CpuVectorIndex F) :
    Inv ops hashKey cfg (system ops hashKey cfg capacity index).init :=
  ⟨fun h v hv => by simp [system, EmbeddingCache.new] at hv, nofun, nofun, nofun, nofun⟩

theorem inv_of_run {capacity : ℕ} {index : CpuVectorIndex F} {ls : List (Label F)}
    (h : (system ops hashKey cfg capacity index).run
      (system ops hashKey cfg capacity index).init ls = some s) : Inv ops hashKey cfg s := by
  have halong := System.along_of_inv (T := system ops hashKey cfg capacity index)
    (P := Inv ops hashKey cfg) (fun _ hs => hs) (fun _ _ _ hs hstep => inv_step hs hstep)
    (inv_init capacity index) ls
  exact halong.last h

end Inv

/-- A text is embedded by its length. -/
def countingConfig : RagConfig ℕ :=
  ⟨fun text => .ok [text.length, 1], fun text sources => .ok (text ++ toString sources.length)⟩

end Rag

end Agents

end AtomrAccel
