import AgentPalace.Lib.Uri
import AgentPalace.Config.Accepted

/-!
# Plain HTTP

`isLoopbackHttpUrl` looks for the host at the start of the authority, where the
user info of a URL would stand. For a URL without user info the host it finds is
the one a client connects to; otherwise it has checked the user name.
-/

namespace AgentPalace

/-- What stands behind `http://`. -/
def behindHttp (url : String) : List Char := url.toList.drop "http://".length

def httpHost (url : String) : List Char := Uri.host (behindHttp url)

/-- Whether the authority of the URL has user info. -/
def hasUserinfo (url : String) : Bool := decide ('@' ∈ Uri.authority (behindHttp url))

def withoutUserinfo (url : String) : String :=
  String.ofList ("http://".toList ++ Uri.hostPort (Uri.authority (behindHttp url)))

theorem isLoopbackHttpUrl_iff {url : String} {rest : List Char}
    (h : url.toList = "http://".toList ++ rest) :
    isLoopbackHttpUrl url = true ↔ Uri.hostOf (rest.takeWhile (· ≠ '/')) ∈ loopbackHosts := by
  have hrest : "http://".toList.isPrefixOf? url.toList = some rest := by
    rw [h]
    rfl
  by_cases hopen : ∃ stripped, rest.takeWhile (· ≠ '/') = '[' :: stripped
  · obtain ⟨stripped, hopen⟩ := hopen
    rw [hopen]
    simp only [isLoopbackHttpUrl, hrest, hopen, decide_eq_true_iff]
    exact Iff.rfl
  · have hplain : ∀ stripped, rest.takeWhile (· ≠ '/') ≠ '[' :: stripped := by
      simpa using hopen
    rw [Uri.hostOf_plain hplain]
    simp only [isLoopbackHttpUrl, hrest, decide_eq_true_iff]

theorem toList_of_http {url : String} (h : startsWith url "http://" = true) :
    url.toList = "http://".toList ++ behindHttp url := by
  obtain ⟨rest, hrest⟩ := List.isPrefixOf_iff_prefix.1 h
  unfold behindHttp
  rw [← hrest]
  rfl

/-- No loopback host has a character that ends an authority. -/
theorem loopbackHosts_plain : ∀ host ∈ loopbackHosts, ∀ c ∈ host, Uri.isDelimiter c = false := by
  have hall : loopbackHosts.all (fun host => host.all fun c => !Uri.isDelimiter c) = true := by
    decide
  intro host hhost c hc
  have hdelimiter := List.all_eq_true.1 (List.all_eq_true.1 hall host hhost) c hc
  simpa using hdelimiter

theorem hostOf_authority {rest : List Char}
    (h : Uri.hostOf (rest.takeWhile (· ≠ '/')) ∈ loopbackHosts) :
    Uri.hostOf (Uri.authority rest) = Uri.hostOf (rest.takeWhile (· ≠ '/')) := by
  have hcut : (rest.takeWhile (· ≠ '/')).takeWhile (fun c => !Uri.isDelimiter c) =
      Uri.authority rest := by
    rw [List.takeWhile_takeWhile]
    congr 1
    funext c
    by_cases hc : c = '/' <;> simp [Uri.isDelimiter, hc]
  rw [← hcut]
  apply Uri.hostOf_takeWhile (by decide)
  intro c hc
  simpa using loopbackHosts_plain _ h c hc

theorem httpHost_of_plain {url : String} (hhttp : startsWith url "http://" = true)
    (hloopback : isLoopbackHttpUrl url = true) (hplain : hasUserinfo url = false) :
    httpHost url ∈ loopbackHosts := by
  have hhost := (isLoopbackHttpUrl_iff (toList_of_http hhttp)).1 hloopback
  unfold httpHost Uri.host
  rw [Uri.hostPort_eq_self (by simpa [hasUserinfo] using hplain), hostOf_authority hhost]
  exact hhost

theorem isLoopbackHttpUrl_withoutUserinfo {url : String} :
    isLoopbackHttpUrl (withoutUserinfo url) = true ↔ httpHost url ∈ loopbackHosts := by
  have htext : (withoutUserinfo url).toList =
      "http://".toList ++ Uri.hostPort (Uri.authority (behindHttp url)) := String.toList_ofList
  rw [isLoopbackHttpUrl_iff htext]
  have hslash : (Uri.hostPort (Uri.authority (behindHttp url))).takeWhile (· ≠ '/') =
      Uri.hostPort (Uri.authority (behindHttp url)) := by
    apply List.takeWhile_eq_self_iff.2
    intro c hc
    have := Uri.delimiter_not_mem (Uri.mem_hostPort hc)
    simp_all [Uri.isDelimiter]
  rw [hslash]
  rfl

variable {configPath : String} {envLookup : String → Option String}

/-- **Plain HTTP goes to loopback.** A remote of an accepted section that is reached over plain
HTTP is on this machine if and only if its URL has no user info, or would have been accepted
without it. -/
theorem http_loopback_iff {config : Option FederationConfigV1} {fed : FederationRuntimeConfig}
    (h : resolveFederationConfig configPath config envLookup = .ok fed) {name : String}
    {r : ResolvedRemote} (hr : fed.remotes.get? name = some r)
    (hhttp : startsWith r.url "http://" = true) :
    httpHost r.url ∈ loopbackHosts ↔
      hasUserinfo r.url = false ∨ isLoopbackHttpUrl (withoutUserinfo r.url) = true := by
  rw [isLoopbackHttpUrl_withoutUserinfo]
  refine ⟨.inr, ?_⟩
  rintro (hplain | hhost)
  · exact httpHost_of_plain hhttp (((accepted h).remotes name r hr).2 hhttp) hplain
  · exact hhost

def oneRemote (url : String) : FederationConfigV1 where
  remotes := [⟨"palace", url, some "secret", none, none, none⟩]
  defaultMode := none
  defaultRemote := none
  wings := .empty
  kg := none
  coordination := .empty

/-- The remote of a resolved section, if there is one. -/
def remoteUrl (config : FederationConfigV1) (name : String) : Option String :=
  (resolveFederationConfig "config.toml" (some config) fun _ => none).toOption.bind fun fed =>
    (fed.remotes.get? name).map (·.url)

theorem remoteUrl_eq (config : FederationConfigV1) (name url : String)
    (h : remoteUrl config name = some url) :
    ∃ fed r, resolveFederationConfig "config.toml" (some config) (fun _ => none) = .ok fed ∧
      fed.remotes.get? name = some r ∧ r.url = url := by
  unfold remoteUrl at h
  cases hfed : resolveFederationConfig "config.toml" (some config) fun _ => none with
  | error e =>
    rw [hfed] at h
    cases h
  | ok fed =>
    rw [hfed] at h
    obtain ⟨r, hr, hurl⟩ := Option.map_eq_some_iff.1 h
    exact ⟨fed, r, rfl, hr, hurl⟩

theorem http_loopback_sample :
    httpHost "http://localhost:8080/palace" ∈ loopbackHosts ↔
      hasUserinfo "http://localhost:8080/palace" = false ∨
        isLoopbackHttpUrl (withoutUserinfo "http://localhost:8080/palace") = true := by
  obtain ⟨fed, r, hfed, hr, hurl⟩ := remoteUrl_eq (oneRemote "http://localhost:8080/palace") "palace"
    "http://localhost:8080/palace" (by decide +kernel)
  have := http_loopback_iff hfed hr (by rw [hurl]; decide)
  rwa [hurl] at this

/-- The text before the first `:` is a user name here. -/
theorem userinfo_passes :
    ¬∀ (configPath : String) (envLookup : String → Option String)
      (config : Option FederationConfigV1) (fed : FederationRuntimeConfig) (name : String)
      (r : ResolvedRemote), resolveFederationConfig configPath config envLookup = .ok fed →
      fed.remotes.get? name = some r → startsWith r.url "http://" = true →
      httpHost r.url ∈ loopbackHosts := by
  intro h
  obtain ⟨fed, r, hfed, hr, hurl⟩ := remoteUrl_eq (oneRemote "http://localhost:x@palace.example/") "palace"
    "http://localhost:x@palace.example/" (by decide +kernel)
  have := h _ _ _ fed _ r hfed hr (by rw [hurl]; decide)
  rw [hurl] at this
  revert this
  decide

end AgentPalace
