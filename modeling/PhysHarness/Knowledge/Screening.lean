import PhysHarness.Knowledge.Literature

/-!
# Screening closes over the keys of works

A result is withheld when the screen blocks it in itself, or when a chain of other results of the same
answer that share keys connects it to one that is. The keys of what is withheld join the ones the broker
refuses, and it refuses them in every later search and fetch.

## Main result

`screening_closes`: this, for every run of calls on one broker in benchmark mode.
-/
namespace PhysHarness

namespace Knowledge

open Tainting (Tainted kept taint)

section

variable [LiteratureReading]

/-- The keys an item names, by its identity or one of its URLs. -/
def Item.named (item : Item) : Finset String :=
  identity item ∪ item.addresses.toFinset.biUnion urlIds

namespace Broker

variable {broker : Broker}

/-! ### Learning -/

omit [LiteratureReading] in
@[simp] theorem learn_policy (keys : Finset String) : (broker.learn keys).policy = broker.policy := by
  rw [learn]
  split <;> rfl

omit [LiteratureReading] in
theorem learn_grows (keys : Finset String) : broker.learned ⊆ (broker.learn keys).learned := by
  rw [learn]
  split
  · exact Finset.subset_union_left
  · exact Finset.Subset.refl _

omit [LiteratureReading] in
/-- What is to be learned is refused from then on. -/
theorem learn_known (keys : Finset String) : keys ⊆ (broker.learn keys).known := by
  intro key inside
  rw [known, learn_policy]
  by_cases blocked : key ∈ broker.policy.ids
  · exact Finset.mem_union_left _ blocked
  refine Finset.mem_union_right _ ?_
  by_cases learned : key ∈ broker.learned
  · exact learn_grows keys learned
  have fresh : key ∈ (keys \ broker.learned) \ broker.policy.ids :=
    Finset.mem_sdiff.mpr ⟨Finset.mem_sdiff.mpr ⟨inside, learned⟩, blocked⟩
  rw [learn]
  rw [if_pos ⟨key, fresh⟩]
  exact Finset.mem_union_right _ fresh

/-- The pattern stands for the refused keys. -/
def Current (broker : Broker) : Prop := broker.keys = broker.known

omit [LiteratureReading] in
theorem Current.learn {keys : Finset String} (current : broker.Current) :
    (broker.learn keys).Current := by
  rw [Broker.learn]
  split
  · rfl
  · exact current

/-! ### One answer -/

open Classical in
/-- The screen keeps, in their order, the items no chain connects to a blocked one. -/
theorem screen_kept (broker : Broker) (items : List Item) :
    (broker.screen items).1 =
      items.filter fun item => ¬ Tainted identity broker.itemBlocked items item :=
  Tainting.kept_eq _ _ _

theorem mem_screen {items : List Item} {item : Item} : item ∈ (broker.screen items).1 ↔
    item ∈ items ∧ ¬ Tainted identity broker.itemBlocked items item :=
  Tainting.mem_kept

theorem screen_perm {items others : List Item} (perm : items.Perm others) :
    (broker.screen items).1.Perm (broker.screen others).1 ∧
      (broker.screen items).2 = (broker.screen others).2 :=
  ⟨Tainting.kept_perm perm, congrArg broker.learn (Tainting.taint_perm perm)⟩

theorem screen_learns {items : List Item} {item : Item} (member : item ∈ items)
    (withheld : item ∉ (broker.screen items).1) : identity item ⊆ (broker.screen items).2.known := by
  have tainted : Tainted identity broker.itemBlocked items item := by
    by_contra apart
    exact withheld (mem_screen.mpr ⟨member, apart⟩)
  intro key inside
  exact learn_known _ ((Tainting.taint_iff _ _ _).2.2 key |>.mpr ⟨item, tainted, inside⟩)

theorem pageBlocked_of_known {url key : String} (named : key ∈ urlIds url) (known : key ∈ broker.known) :
    broker.pageBlocked url = true := by
  rw [pageBlocked, if_pos ⟨key, Finset.mem_inter.mpr ⟨named, known⟩⟩]

/-- An item that names a refused key is blocked in itself. -/
theorem itemBlocked_of_known {item : Item} {key : String} (named : key ∈ item.named)
    (known : key ∈ broker.known) : broker.itemBlocked item = true := by
  rw [itemBlocked, Bool.or_eq_true, Bool.or_eq_true]
  refine .inl ((Finset.mem_union.mp named).imp (fun own => ?_) fun address => ?_)
  · exact decide_eq_true ⟨key, Finset.mem_inter.mpr ⟨own, known⟩⟩
  · obtain ⟨url, listed, inside⟩ := Finset.mem_biUnion.mp address
    exact List.any_eq_true.mpr ⟨url, List.mem_toFinset.mp listed, pageBlocked_of_known inside known⟩

theorem screen_apart {items : List Item} {item : Item} (member : item ∈ (broker.screen items).1) :
    Disjoint item.named broker.known := by
  obtain ⟨listed, apart⟩ := mem_screen.mp member
  exact Finset.disjoint_left.mpr fun key named known =>
    apart ⟨item, listed, itemBlocked_of_known named known, .refl⟩

theorem mem_unique {items : List Item} {seen : Finset String} {entry : PublicItem}
    (member : entry ∈ unique items seen) : ∃ item ∈ items, item.toPublicItem = entry := by
  induction items generalizing seen with
  | nil => exact absurd member List.not_mem_nil
  | cons item items ih =>
    rw [unique] at member
    split at member
    · obtain ⟨other, listed, same⟩ := ih member
      exact ⟨other, List.mem_cons_of_mem _ listed, same⟩
    · rcases List.mem_cons.mp member with rfl | later
      · exact ⟨item, List.mem_cons_self, rfl⟩
      · obtain ⟨other, listed, same⟩ := ih later
        exact ⟨other, List.mem_cons_of_mem _ listed, same⟩

/-! ### One call -/

/-- What a search that answers has done. -/
theorem search_screens {query : String} {limit : Int} {arxiv openalex : Except TransportError Response}
    {result : SearchResult} {after : Broker} (benchmark : broker.policy.mode = .benchmark)
    (found : broker.search query limit arxiv openalex = .ok (result, after)) :
    result.items = (unique (broker.screen (answered limit.toNat arxiv openalex)).1 ∅).take limit.toNat ∧
      after = (broker.screen (answered limit.toNat arxiv openalex)).2 := by
  obtain ⟨-, -, rest⟩ := Outcome.bind_ok.mp found
  obtain ⟨-, -, rest⟩ := Outcome.bind_ok.mp rest
  obtain ⟨-, -, rest⟩ := Outcome.bind_ok.mp rest
  dsimp only at rest
  rw [if_pos benchmark, Outcome.pure_ok] at rest
  obtain ⟨rfl, rfl⟩ := Prod.mk.inj rest
  exact ⟨rfl, rfl⟩

theorem checkSource_apart {url : String} {u : Unit} (benchmark : broker.policy.mode = .benchmark)
    (checked : broker.checkSource url = .ok u) : Disjoint (urlIds url) broker.known := by
  obtain ⟨host, -, rest⟩ := Outcome.bind_ok.mp checked
  obtain ⟨-, -, rest⟩ := Outcome.bind_ok.mp rest
  obtain ⟨-, -, rest⟩ := Outcome.bind_ok.mp rest
  obtain ⟨-, -, rest⟩ := Outcome.bind_ok.mp rest
  have open' := Outcome.require_ok.mp rest
  exact Finset.disjoint_left.mpr fun key named known =>
    open' ⟨benchmark, pageBlocked_of_known named known⟩

theorem fetch_apart {url : String} {answer : Except TransportError Response} {result : Fetched}
    (benchmark : broker.policy.mode = .benchmark) (fetched : broker.fetch url answer = .ok result) :
    Disjoint (urlIds url) broker.known ∧
      ∀ response, answer = .ok response → Disjoint (urlIds response.finalUrl) broker.known := by
  obtain ⟨-, -, rest⟩ := Outcome.bind_ok.mp fetched
  obtain ⟨_, asked, rest⟩ := Outcome.bind_ok.mp rest
  obtain ⟨-, -, rest⟩ := Outcome.bind_ok.mp rest
  obtain ⟨response, answered, rest⟩ := Outcome.bind_ok.mp rest
  obtain ⟨_, reached, -⟩ := Outcome.bind_ok.mp rest
  refine ⟨checkSource_apart benchmark asked, fun other given => ?_⟩
  subst given
  obtain rfl : other = response := Except.ok.inj answered
  exact checkSource_apart benchmark reached

/-- A call changes the broker only by what the screen learns. -/
theorem step_cases (broker : Broker) (request : Request) :
    broker.step request = broker ∨ ∃ keys, broker.step request = broker.learn keys := by
  rw [step]
  cases request with
  | fetch url answer =>
    left
    rw [call]
    split <;> rfl
  | search query limit arxiv openalex =>
    rw [call]
    split
    next result after found =>
      obtain ⟨-, -, rest⟩ := Outcome.bind_ok.mp found
      obtain ⟨-, -, rest⟩ := Outcome.bind_ok.mp rest
      obtain ⟨-, -, rest⟩ := Outcome.bind_ok.mp rest
      dsimp only at rest
      rw [Outcome.pure_ok] at rest
      obtain ⟨-, rfl⟩ := Prod.mk.inj rest
      split
      · exact .inr ⟨_, rfl⟩
      · exact .inl rfl
    next => exact .inl rfl

/-! ### Runs -/

/-- What every call keeps. -/
structure Extends (before after : Broker) : Prop where
  policy : after.policy = before.policy
  learned : before.learned ⊆ after.learned

omit [LiteratureReading] in
theorem Extends.known {before after : Broker} (more : Extends before after) :
    before.known ⊆ after.known := by
  rw [Broker.known, Broker.known, more.policy]
  exact Finset.union_subset_union_right more.learned

theorem step_extends (broker : Broker) (request : Request) : Extends broker (broker.step request) := by
  rcases step_cases broker request with same | ⟨keys, learns⟩
  · exact ⟨congrArg _ same, by rw [same]⟩
  · exact ⟨by rw [learns, learn_policy], by rw [learns]; exact learn_grows keys⟩

theorem run_extends (broker : Broker) (requests : List Request) :
    Extends broker (Transition.run step broker requests) :=
  Transition.run_always (Extends broker) requests ⟨rfl, Finset.Subset.refl _⟩
    fun middle request before =>
      have next := step_extends middle request
      ⟨next.policy.trans before.policy, before.learned.trans next.learned⟩

/-- Along every run the texts are searched for the keys that are refused. -/
theorem run_current (policy : Policy) (reference : Finset (List String)) (requests : List Request) :
    (Transition.run step (literatureBroker policy reference) requests).Current := by
  refine Transition.run_always Current requests (Finset.union_empty _).symm fun broker request current => ?_
  rcases step_cases broker request with same | ⟨keys, learns⟩
  · rwa [same]
  · rw [learns]
    exact current.learn

/-- The answer to a request gives nothing that names one of the keys. -/
def Refuses (keys : Finset String) : Request → Reply → Prop
  | .search _ limit arxiv openalex, .found result =>
    ∀ entry ∈ result.items, ∃ item ∈ answered limit.toNat arxiv openalex,
      item.toPublicItem = entry ∧ Disjoint item.named keys
  | .fetch url answer, .fetched _ =>
    Disjoint (urlIds url) keys ∧
      ∀ response, answer = .ok response → Disjoint (urlIds response.finalUrl) keys
  | _, _ => True

theorem call_refuses (benchmark : broker.policy.mode = .benchmark) (request : Request) :
    Refuses broker.known request (broker.call request).1 := by
  cases request with
  | search query limit arxiv openalex =>
    rw [call]
    split
    next result after found =>
      intro entry member
      rw [(search_screens benchmark found).1] at member
      obtain ⟨item, screened, same⟩ := mem_unique (List.mem_of_mem_take member)
      exact ⟨item, (mem_screen.mp screened).1, same, screen_apart screened⟩
    next => trivial
  | fetch url answer =>
    rw [call]
    split
    next fetched => exact fetch_apart benchmark fetched
    next => trivial

theorem Refuses.mono {keys more : Finset String} {request : Request} {reply : Reply}
    (refuses : Refuses more request reply) (fewer : keys ⊆ more) : Refuses keys request reply := by
  cases request <;> cases reply <;> try trivial
  · intro entry member
    obtain ⟨item, listed, same, apart⟩ := refuses entry member
    exact ⟨item, listed, same, apart.mono_right fewer⟩
  · exact ⟨refuses.1.mono_right fewer, fun response given => (refuses.2 response given).mono_right fewer⟩

end Broker

open Broker Classical in
/-- **Screening closes over identities.** In benchmark mode the screen keeps, in every state of the
broker, the items no chain connects to a blocked one, in whatever order they come, and learns every key of
the others that is not on the blocklist already; what is learned stays, and every later call refuses what
names a learned or blocked key. -/
theorem screening_closes (policy : Policy) (reference : Finset (List String))
    (benchmark : policy.mode = .benchmark) (requests : List Request) :
    let broker := Transition.run step (literatureBroker policy reference) requests
    (∀ items : List Item,
      (broker.screen items).1 =
          items.filter (fun item => ¬ Tainted identity broker.itemBlocked items item) ∧
        (∀ others, items.Perm others → (broker.screen items).1.Perm (broker.screen others).1 ∧
          (broker.screen items).2 = (broker.screen others).2) ∧
        ∀ item ∈ items, item ∉ (broker.screen items).1 →
          identity item ⊆ policy.ids ∪ (broker.screen items).2.learned) ∧
    (∀ query limit arxiv openalex result,
      (broker.call (.search query limit arxiv openalex)).1 = .found result →
        result.items =
            (unique (broker.screen (answered limit.toNat arxiv openalex)).1 ∅).take limit.toNat ∧
          broker.step (.search query limit arxiv openalex) =
            (broker.screen (answered limit.toNat arxiv openalex)).2) ∧
    ∀ more : List Request,
      broker.learned ⊆ (Transition.run step broker more).learned ∧
        ∀ request, Refuses (policy.ids ∪ broker.learned) request
          ((Transition.run step broker more).call request).1 := by
  intro broker
  have kept : broker.policy = policy := (run_extends _ requests).policy
  have mode : broker.policy.mode = .benchmark := kept ▸ benchmark
  refine ⟨fun items => ⟨screen_kept broker items, fun others => screen_perm, ?_⟩, ?_, fun more => ?_⟩
  · intro item member withheld
    have learns := screen_learns member withheld
    rwa [known, screen, learn_policy, kept] at learns
  · intro query limit arxiv openalex result found
    rw [step]
    rw [call] at found ⊢
    split at found
    next given after searched =>
      obtain rfl := Reply.found.inj found
      exact search_screens mode searched
    next => cases found
  · have later := run_extends broker more
    refine ⟨later.learned, fun request => ?_⟩
    have refuses := call_refuses (later.policy ▸ mode) request
    refine refuses.mono ?_
    have fewer := later.known
    rwa [known, kept] at fewer

end

/-! ### A blocked key is not learned again -/

namespace Scenario

def blocking : Policy where
  mode := .benchmark
  ids := {"doi:10.1000/x"}
  pages := []
  domains := []
  titles := []
  threshold := 0

def copy : Item where
  source := "arxiv"
  id := "2101.00001"
  title := "A title"
  authors := []
  year := some 2021
  url := none
  doi := some "10.1000/x"
  abstract := ""
  urls := []
  ids := []
  extra := ""

/-- A reading of texts without spaces, entities or links. -/
local instance plainReading : LiteratureReading where
  lowered := id
  doi text := if text.toList.take 3 = ['1', '0', '.'] then some text else none
  arxivDoi _ := none
  arxivKey := id
  oaiArxiv _ := none
  isOpenalexId _ := false
  urlParts _ := none
  normalPath := id
  decodedTail := id
  arxivPath _ := none
  isArxivId _ := false
  openalexPath _ := none
  pageKeys _ := []
  checkUrl _ := some "export.arxiv.org"
  searchEndpoint _ _ := false
  opaqueView _ _ := false
  keyHit _ _ := false
  titleHit _ _ := false
  words _ := []
  scaled _ _ := 0
  parseArxiv body := some (if body = [1] then [copy] else [])
  parseOpenalex _ := some []
  extract _ _ := .ok []
  sha256 _ := ""
  strip := id

/-- The screen withholds the arXiv copy of a blocked DOI, and learns its arXiv key but not the DOI. -/
theorem copy_learns : copy ∉ ((literatureBroker blocking ∅).screen [copy]).1 ∧
    ((literatureBroker blocking ∅).screen [copy]).2.learned = {"arxiv:2101.00001"} := by
  decide

theorem blocked_key_not_learned : ¬ ∀ (policy : Policy) (reference : Finset (List String)),
    policy.mode = .benchmark → ∀ (requests : List Broker.Request) (items : List Item),
      ∀ item ∈ items,
        item ∉ ((Transition.run Broker.step (literatureBroker policy reference) requests).screen
          items).1 →
        identity item ⊆ ((Transition.run Broker.step (literatureBroker policy reference)
          requests).screen items).2.learned := by
  intro learns
  have own := learns blocking ∅ rfl [] [copy] copy List.mem_cons_self copy_learns.1
  have key : "doi:10.1000/x" ∈ identity copy := by decide +kernel
  have held := own key
  rw [Transition.run_nil, copy_learns.2] at held
  exact absurd held (by decide)

/-- A reference of the least size the screen takes. -/
def longEnough : Finset (List String) :=
  ((List.range 20).map fun i => [String.ofList (List.replicate i 'a')]).toFinset

def asking : Broker.Request :=
  .search "title" 8 (.ok ⟨200, [], [1], "https://export.arxiv.org/api/query"⟩) (.error (.other ""))

/-- Once a search has met the copy, every later call refuses its arXiv key too. -/
theorem copy_refused :
    (Transition.run Broker.step (literatureBroker blocking longEnough) [asking]).learned =
        {"arxiv:2101.00001"} ∧
      ∀ more request, Broker.Refuses {"doi:10.1000/x", "arxiv:2101.00001"} request
        ((Transition.run Broker.step (Transition.run Broker.step
          (literatureBroker blocking longEnough) [asking]) more).call request).1 := by
  have learned : (Transition.run Broker.step (literatureBroker blocking longEnough) [asking]).learned =
      {"arxiv:2101.00001"} := by decide
  refine ⟨learned, fun more request => ?_⟩
  have closes := ((screening_closes blocking longEnough rfl [asking]).2.2 more).2 request
  rwa [learned] at closes

end Scenario

end Knowledge

end PhysHarness
