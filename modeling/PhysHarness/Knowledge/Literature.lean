import PhysHarness.Lib.Outcome
import PhysHarness.Lib.Tainting
import PhysHarness.Lib.Transition
import Mathlib.Data.Finset.Card
import Mathlib.Algebra.Order.Field.Rat

/-!
# The literature broker

Offline agents search two providers and fetch allowlisted pages through one broker. In benchmark mode it
withholds the works on the blocklist, every provider copy of them, and every text that gives one away,
and it remembers under which keys it has seen such a work.

## Sources
- knowledge/literature.py: `_url_ids`, `_string_ids`, `_identity`, `LiteratureBroker`
-/
namespace PhysHarness

namespace Knowledge

/-- What agents see of a search result. -/
structure PublicItem where
  source : String
  id : String
  title : String
  authors : List String
  year : Option Int
  url : Option String
  doi : Option String
  abstract : String
  deriving DecidableEq

/-- A provider's record, with the identities only the screen reads. -/
structure Item extends PublicItem where
  urls : List String
  ids : List String
  extra : String
  deriving DecidableEq

structure Response where
  status : Nat
  headers : List (String × String)
  body : List UInt8
  finalUrl : String
  deriving DecidableEq

/-- What the transport raises: an error of the harness with its code, or anything else. -/
inductive TransportError where
  | harness (code : String)
  | other (name : String)
  deriving DecidableEq

/-- The parts of a URL that the identifiers stand in. -/
structure UrlParts where
  host : String
  path : String
  query : List (String × String)

/-- How texts are read: the regular expressions, the URL and document parsers and the digest of the
module. Nothing below depends on what they are. -/
class LiteratureReading where
  /-- `value.strip().lower()` -/
  lowered : String → String
  doi : String → Option String
  /-- the id in an `_ARXIV_DOI` -/
  arxivDoi : String → Option String
  arxivKey : String → String
  /-- the id of an `_OAI_ARXIV` somewhere in the text -/
  oaiArxiv : String → Option String
  /-- a full match of `_OPENALEX_ID` -/
  isOpenalexId : String → Bool
  urlParts : String → Option UrlParts
  normalPath : String → String
  /-- `_decoded(path).lstrip("/")` -/
  decodedTail : String → String
  /-- the id in a full match of `_ARXIV_PATH` -/
  arxivPath : String → Option String
  /-- a full match of `_ARXIV_ID` -/
  isArxivId : String → Bool
  /-- the id in a full match of `_OPENALEX_PATH` -/
  openalexPath : String → Option String
  pageKeys : String → List String
  /-- the host of a URL the broker may request -/
  checkUrl : String → Option String
  searchEndpoint : String → String → Bool
  opaqueView : String → String → Bool
  /-- `_key_pattern(keys)` is found in the text, lowercased or as `_key_text` -/
  keyHit : Finset String → String → Bool
  titleHit : List String → String → Bool
  /-- the words of the lowercased text -/
  words : String → List String
  /-- the rounded product of the threshold and the size of the reference -/
  scaled : ℚ → Nat → ℚ
  parseArxiv : List UInt8 → Option (List Item)
  parseOpenalex : List UInt8 → Option (List Item)
  extract : List UInt8 → List (String × String) → Except TransportError (List Char)
  sha256 : List UInt8 → String
  /-- `query.strip()` -/
  strip : String → String

open LiteratureReading (lowered doi arxivDoi arxivKey oaiArxiv isOpenalexId urlParts normalPath
  decodedTail arxivPath isArxivId openalexPath pageKeys checkUrl searchEndpoint opaqueView keyHit
  scaled parseArxiv parseOpenalex extract)

/-! ### The keys of a work -/

def arxivHosts : List String := ["arxiv.org", "export.arxiv.org", "www.arxiv.org"]

def doiHosts : List String := ["doi.org", "dx.doi.org", "www.doi.org"]

def openalexHosts : List String := ["openalex.org", "api.openalex.org"]

def maxUrlChars : Nat := 2048

section Keys

variable [LiteratureReading]

/-- `_doi_key`: the DOI that arXiv gives its own works names the arXiv work. -/
def doiKey (doi : String) : String :=
  match arxivDoi doi with
  | some id => "arxiv:" ++ arxivKey id
  | none => "doi:" ++ doi

/-- `_url_ids` -/
def urlIds (url : String) : Finset String :=
  match urlParts url with
  | none => ∅
  | some parts =>
    if parts.host ∈ arxivHosts then
      let asked := (parts.query.filter fun pair => pair.1 = "id" && isArxivId (lowered pair.2)).map (·.2)
      (((arxivPath (normalPath parts.path)).toList ++ asked).map fun id =>
        "arxiv:" ++ arxivKey id).toFinset
    else if parts.host ∈ doiHosts then
      ((doi (decodedTail parts.path)).toList.map doiKey).toFinset
    else if parts.host ∈ openalexHosts then
      ((openalexPath (normalPath parts.path)).toList.map ("openalex:" ++ ·)).toFinset
    else ∅

/-- `_string_ids`: the keys in one provider identifier. -/
def stringIds (value : String) : Finset String :=
  if value = "" ∨ maxUrlChars < value.length then ∅
  else
    urlIds value ∪ ((doi (lowered value)).toList.map doiKey).toFinset ∪
      ((oaiArxiv (lowered value)).toList.map fun id => "arxiv:" ++ arxivKey id).toFinset ∪
      if isOpenalexId (lowered value) then {"openalex:" ++ lowered value} else ∅

/-- The URLs of an item. -/
def Item.addresses (item : Item) : List String := item.url.toList ++ item.urls

/-- `_identity` -/
def identity (item : Item) : Finset String :=
  (((item.doi.bind doi).toList.map doiKey).toFinset ∪
    if item.source = "arxiv" then {"arxiv:" ++ arxivKey item.id}
    else if item.source = "openalex" then {"openalex:" ++ lowered item.id}
    else ∅) ∪
  (item.addresses ++ item.ids).toFinset.biUnion stringIds

end Keys

/-! ### The broker -/

/-- The mode of the policy; `unscreened` is the mode `open`. -/
inductive Mode where
  | off
  | unscreened
  | benchmark
  deriving DecidableEq

/-- A policy whose entries are classified. -/
structure Policy where
  mode : Mode
  ids : Finset String
  pages : List String
  domains : List String
  titles : List String
  threshold : ℚ

structure Broker where
  policy : Policy
  reference : Finset (List String)
  learned : Finset String
  /-- the keys that `_keys` is the pattern of -/
  keys : Finset String

/-- A new broker has learned nothing. -/
def literatureBroker (policy : Policy) (reference : Finset (List String)) : Broker where
  policy := policy
  reference := reference
  learned := ∅
  keys := policy.ids

inductive LiteratureError where
  | disabled
  | screenUnavailable
  | queryInvalid
  | domainBlocked
  | sourceBlocked
  | fetchFailed
  | fetchTooLarge
  | transport (code : String)
  | providerUnavailable
  | providerStatus
  | providerTooLarge
  | providerMalformed
  deriving DecidableEq

structure Measured where
  shared : Nat
  referenceNgrams : Nat
  deriving DecidableEq

structure Flag where
  measured : Measured
  threshold : ℚ
  reason : String
  deriving DecidableEq

def overlapFloor : Nat := 20

def minReferenceNgrams : Nat := overlapFloor

def providerApiHosts : List String := ["export.arxiv.org", "api.openalex.org", "api.semanticscholar.org"]

/-- `_host_matches` -/
def hostMatches (host domain : String) : Bool :=
  let host := ((host.toLower.dropEndWhile '.').dropPrefix "www.").copy
  host != "" && (host == domain || host.endsWith ("." ++ domain))

namespace Broker

variable (broker : Broker)

/-- The keys the broker refuses. -/
def known : Finset String := broker.policy.ids ∪ broker.learned

def requireEnabled : Except LiteratureError Unit :=
  Outcome.require (broker.policy.mode ≠ .off) .disabled

/-- Too short a reference leaves no screen. -/
def requireScreen : Except LiteratureError Unit :=
  Outcome.require (¬ (broker.policy.mode = .benchmark ∧ broker.reference.card < minReferenceNgrams))
    .screenUnavailable

variable [LiteratureReading]

/-- `_ngrams` -/
def ngrams (text : String) (n : Nat) : Finset (List String) :=
  let words := LiteratureReading.words text
  ((List.range (words.length + 1 - n)).map fun i => (words.drop i).take n).toFinset

/-- `_measure`, without the ratio nothing compares. -/
def measure (reference : Finset (List String)) (text : String) (n : Nat) : Measured where
  shared := (reference ∩ ngrams text n).card
  referenceNgrams := reference.card

/-- `_contamination` -/
def contamination (text : String) : Option Flag :=
  let measured := measure broker.reference text 8
  let threshold := max (overlapFloor : ℚ) (scaled broker.policy.threshold measured.referenceNgrams)
  if keyHit broker.keys text then some ⟨measured, threshold, "blocked_source_key"⟩
  else if LiteratureReading.titleHit broker.policy.titles text then
    some ⟨measured, threshold, "blocked_source_title"⟩
  else if threshold ≤ measured.shared then some ⟨measured, threshold, "reference_overlap"⟩
  else none

/-- `_page_blocked` -/
def pageBlocked (url : String) : Bool :=
  if (urlIds url ∩ broker.known).Nonempty then true
  else if broker.policy.pages = [] ∧ broker.policy.domains = [] then false
  else
    match pageKeys url with
    | [] => false
    | first :: others =>
      -- the first key names the host
      let host := (first.takeWhile (· ≠ '/')).copy
      broker.policy.domains.any (hostMatches host) ||
        (first :: others).any fun page =>
          broker.policy.pages.any fun blocked => page == blocked || page.startsWith (blocked ++ "/")

/-- `_item_blocked` -/
def itemBlocked (item : Item) : Bool :=
  decide (identity item ∩ broker.known).Nonempty || item.addresses.any broker.pageBlocked ||
    (broker.contamination ("\n".intercalate [item.title, item.abstract, item.extra])).isSome

omit [LiteratureReading] in
/-- `_learn` -/
def learn (keys : Finset String) : Broker :=
  let fresh := (keys \ broker.learned) \ broker.policy.ids
  if fresh.Nonempty then
    { broker with
      learned := broker.learned ∪ fresh
      keys := broker.policy.ids ∪ (broker.learned ∪ fresh) }
  else broker

/-- `_screen`: the items that are kept, and the broker that has learned the keys of the others. -/
def screen (items : List Item) : List Item × Broker :=
  (Tainting.kept identity broker.itemBlocked items,
    broker.learn (Tainting.taint identity broker.itemBlocked items).2)

/-! ### Calls -/

def maxFetchBytes : Nat := 5 * 1024 * 1024

/-- `_provider` -/
def provider (answer : Except TransportError Response) (parse : List UInt8 → Option (List Item)) :
    Except LiteratureError (List Item) :=
  match answer with
  | .error (.harness code) => .error (.transport code)
  | .error (.other _) => .error .providerUnavailable
  | .ok response => do
    let _ ← Outcome.orThrow (checkUrl response.finalUrl) .domainBlocked
    Outcome.require (200 ≤ response.status ∧ response.status < 300) .providerStatus
    Outcome.require (response.body.length ≤ maxFetchBytes) .providerTooLarge
    Outcome.orThrow (parse response.body) .providerMalformed

/-- One of each in turn, and then what one of them has left. -/
def interleave {α : Type} : List α → List α → List α
  | [], others => others
  | items, [] => items
  | item :: items, other :: others => item :: other :: interleave items others

/-- The first `limit` items of a provider, and the error when it gave none. -/
def batch (source : String) (limit : Nat) (answer : Except LiteratureError (List Item)) :
    List Item × List (String × LiteratureError) :=
  match answer with
  | .ok items => (items.take limit, [])
  | .error error => ([], [(source, error)])

/-- The items that share no key with one before them, as agents see them. -/
def unique : List Item → Finset String → List PublicItem
  | [], _ => []
  | item :: items, seen =>
    if (identity item ∩ seen).Nonempty then unique items seen
    else item.toPublicItem :: unique items (seen ∪ identity item)

structure SearchResult where
  query : String
  items : List PublicItem
  errors : List (String × LiteratureError)
  deriving DecidableEq

def maxQueryChars : Nat := 500

def maxSearchLimit : Nat := 20

/-- What both providers answer, interleaved. -/
def answered (limit : Nat) (arxiv openalex : Except TransportError Response) : List Item :=
  interleave (batch "arxiv" limit (provider arxiv parseArxiv)).1
    (batch "openalex" limit (provider openalex parseOpenalex)).1

def search (query : String) (limit : Int) (arxiv openalex : Except TransportError Response) :
    Except LiteratureError (SearchResult × Broker) := do
  broker.requireEnabled
  broker.requireScreen
  Outcome.require (LiteratureReading.strip query ≠ "" ∧ query.length ≤ maxQueryChars ∧ 1 ≤ limit ∧
    limit ≤ maxSearchLimit) .queryInvalid
  let limit := limit.toNat
  let items := answered limit arxiv openalex
  let (items, after) :=
    if broker.policy.mode = .benchmark then broker.screen items else (items, broker)
  pure ({
    query := LiteratureReading.strip query
    items := (unique items ∅).take limit
    errors := (batch "arxiv" limit (provider arxiv parseArxiv)).2 ++
      (batch "openalex" limit (provider openalex parseOpenalex)).2 }, after)

/-- `_check_source` -/
def checkSource (url : String) : Except LiteratureError Unit := do
  let host ← Outcome.orThrow (checkUrl url) .domainBlocked
  let benchmark := broker.policy.mode = .benchmark
  Outcome.require (¬ (benchmark ∧ host ∈ providerApiHosts)) .sourceBlocked
  Outcome.require (¬ (benchmark ∧ searchEndpoint url host)) .sourceBlocked
  Outcome.require (¬ (benchmark ∧ opaqueView url host)) .sourceBlocked
  Outcome.require (¬ (benchmark ∧ broker.pageBlocked url)) .sourceBlocked

inductive Fetched where
  | withheld (url finalUrl sha256 : String) (flag : Flag)
  | ok (url finalUrl sha256 : String) (text : List Char) (totalChars : Nat)
  deriving DecidableEq

def maxTextChars : Nat := 200000

def returnTextChars : Nat := 20000

def transportError : TransportError → LiteratureError
  | .harness code => .transport code
  | .other _ => .fetchFailed

def fetch (url : String) (answer : Except TransportError Response) : Except LiteratureError Fetched := do
  broker.requireEnabled
  broker.checkSource url
  broker.requireScreen
  let response ← answer.mapError transportError
  broker.checkSource response.finalUrl
  Outcome.require (200 ≤ response.status ∧ response.status < 300) .fetchFailed
  Outcome.require (response.body.length ≤ maxFetchBytes) .fetchTooLarge
  let text := (← (extract response.body response.headers).mapError transportError).take maxTextChars
  let digest := LiteratureReading.sha256 response.body
  match (if broker.policy.mode = .benchmark then broker.contamination (String.ofList text) else none) with
  | some flag => pure (.withheld url response.finalUrl digest flag)
  | none => pure (.ok url response.finalUrl digest (text.take returnTextChars) text.length)

/-- A call of an agent, with what the network answers it. -/
inductive Request where
  | search (query : String) (limit : Int) (arxiv openalex : Except TransportError Response)
  | fetch (url : String) (answer : Except TransportError Response)

inductive Reply where
  | found (result : SearchResult)
  | fetched (result : Fetched)
  | refused (error : LiteratureError)

/-- A refused call leaves the broker as it was, and so does a fetch. -/
def call : Request → Reply × Broker
  | .search query limit arxiv openalex =>
    match broker.search query limit arxiv openalex with
    | .ok (result, after) => (.found result, after)
    | .error error => (.refused error, broker)
  | .fetch url answer =>
    match broker.fetch url answer with
    | .ok result => (.fetched result, broker)
    | .error error => (.refused error, broker)

def step (broker : Broker) (request : Request) : Broker := (broker.call request).2

end Broker

end Knowledge

end PhysHarness
