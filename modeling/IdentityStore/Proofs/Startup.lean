/-
What a configuration that was accepted comes to.

A data source is checked when the configuration is loaded, and again before anything is built.  A
source that passes names a server by host and port if it names one, so the settings that are made
of it are there, with that host and that port.

Two of its values are not checked as far as they are needed.  Of the namespace only that it is not
empty is checked, while keys ask that no character has a meaning in patterns.  So a source that
passes may still be refused for its namespace, and if it names a server this comes after the server
was reached: `patterned_namespace_passes`.  Of the host, too, only that it is not empty is checked.
Whether a server can be looked up under it is seen before the server is reached, and the host of
`::1:6379`, for one, is refused then.
-/
import IdentityStore.Config.Load
import IdentityStore.Proofs.Json.Document
import IdentityStore.Proofs.Server.Address
import IdentityStore.Startup

namespace IdentityStore

variable {o : SourceOptions} {d : DataSource} {ns : String} {files : Files}
  {connect : Server.Settings → Except StoreError Unit}

/-! ### Namespaces -/

/-- Holds if no character of the namespace that is named has a meaning in patterns. -/
def SourceOptions.isPlain (o : SourceOptions) : Bool :=
  o.namespaceName.all fun ns => ns.toList.all fun c => !patternChars.contains c

theorem isNamespace_eq (h : o.namespaceName ≠ some "") (hname : o.namespaceName = some ns) :
    isNamespace ns = o.isPlain := by
  have hns : ns ≠ "" := fun hempty => h (hname.trans (congrArg some hempty))
  rw [isNamespace, SourceOptions.isPlain, hname, Option.all_some]
  simp [hns]

/-- The keys of a namespace that means itself in patterns. -/
theorem keySpace_of_plain (h : o.namespaceName ≠ some "") (hplain : o.isPlain = true) :
    ∃ keys, o.keySpace = .ok keys ∧
      keys.root = o.namespaceName.getD KeySpace.default.root := by
  unfold SourceOptions.keySpace
  rcases hname : o.namespaceName with _ | ns
  · exact ⟨KeySpace.default, rfl, rfl⟩
  · have hns : isNamespace ns = true := (isNamespace_eq h hname).trans hplain
    refine ⟨⟨ns, hns⟩, ?_, rfl⟩
    dsimp only
    rw [KeySpace.ofNamespace, dif_pos hns]
    rfl

/-- There are no keys of any other namespace. -/
theorem keySpace_of_not_plain (h : o.namespaceName ≠ some "") (hplain : o.isPlain = false) :
    ∃ ns, o.namespaceName = some ns ∧ o.keySpace = .error (.badNamespace ns
      (.malformed "Namespace" s!"namespace '{ns}' contains glob characters")) := by
  unfold SourceOptions.keySpace
  rcases hname : o.namespaceName with _ | ns
  · rw [SourceOptions.isPlain, hname] at hplain
    cases hplain
  · have hns : isNamespace ns = false := (isNamespace_eq h hname).trans hplain
    refine ⟨ns, rfl, ?_⟩
    dsimp only
    rw [KeySpace.ofNamespace, dif_neg (Bool.eq_false_iff.mp hns),
      if_neg fun hempty => h (hname.trans (congrArg some hempty))]
    rfl

/-! ### Sources that pass -/

namespace DataSource

theorem validate_eq_ok_iff : d.validate = .ok () ↔
    d.validateKind = .ok () ∧ d.options.namespaceName ≠ some "" := by
  unfold validate
  rcases d.validateKind with flaw | _
  · exact ⟨nofun, fun h => nomatch h.1⟩
  · by_cases hempty : d.options.namespaceName = some ""
    · simp [hempty, bind, Except.bind, throw, throwThe, MonadExceptOf.throw]
    · simp [hempty, bind, Except.bind, pure, Except.pure]

/-- The settings have host and port of the address. -/
theorem settings_of_address {host : String} {port : UInt16} (h : d.address = .ok (host, port)) :
    ∃ settings, d.settings = .ok settings ∧ settings.host = host ∧ settings.port = port := by
  unfold settings
  rw [h]
  exact ⟨_, rfl, rfl, rfl⟩

/-- A server that passes has an address. -/
theorem address_of_validateKind (hkind : d.kind = .redis) (h : d.validateKind = .ok ()) :
    ∃ host port, d.address = .ok (host, port) := by
  rw [validateKind, hkind] at h
  obtain ⟨⟨host, port⟩, haddress, -⟩ := Json.exists_of_bind_eq_ok h
  exact ⟨host, port, haddress⟩

/-- Memory needs nothing but keys. -/
theorem build_memory (hkind : d.kind = .memory) (h : d.validate = .ok ()) :
    d.build files connect = d.options.keySpace.map .memory := by
  unfold build
  rw [h, hkind]
  rcases d.options.keySpace with e | keys <;> rfl

/-- A server needs an address, has to be reached, and then needs nothing but keys. -/
theorem build_redis {settings : Server.Settings} (hkind : d.kind = .redis)
    (h : d.validate = .ok ()) (hsettings : d.settings = .ok settings) :
    d.build files connect =
      ((settings.check >>= fun _ => connect settings).mapError (.noConnection d.source)
        >>= fun _ => d.options.keySpace.map (.server settings)) := by
  unfold build
  rw [h, hkind]
  simp only [Except.mapError, bind, Except.bind, hsettings]
  rcases settings.check with e | _
  · rfl
  · rcases connect settings with e | _
    · rfl
    · rcases d.options.keySpace with e | keys <;> rfl

end DataSource

/-- What is loaded has passed. -/
theorem Config.validate_of_load {env : Environment} {path : String} {c : Config}
    (h : Config.load files env path = .ok c) : c.dataSource.validate = .ok () := by
  obtain ⟨document, -, h⟩ := Json.exists_of_bind_eq_ok h
  obtain ⟨format, -, h⟩ := Json.exists_of_bind_eq_ok h
  obtain ⟨loaded, -, h⟩ := Json.exists_of_bind_eq_ok h
  obtain ⟨_, hvalid, h⟩ := Json.exists_of_bind_eq_ok h
  cases h
  exact Json.eq_ok_of_mapError hvalid

/-- **What keeps a source that passes from being built.**  The source of every configuration that is
loaded has passed.  For a source that has passed there are keys of the namespace that it names, or
of the usual one, just if no character of the namespace has a meaning in patterns.  Memory is built
if there are keys.  For a server there are settings with the host and the port of the address.  If
they are refused, so is the source, whatever the server would do; otherwise it depends on whether
the server is reached and then on the keys.  For a host that has no slash, question mark or number
sign, the settings are accepted just if what names the host is an address of the sixth version in
brackets, or is not empty and has neither a colon nor a character that is forbidden. -/
theorem passed_sources_are_built (d : DataSource) :
    (∀ files env path c, Config.load files env path = .ok c → c.dataSource = d →
      d.validate = .ok ()) ∧
    (d.validate = .ok () →
      (d.options.isPlain = true → ∃ keys, d.options.keySpace = .ok keys ∧
        keys.root = d.options.namespaceName.getD KeySpace.default.root) ∧
      (d.options.isPlain = false → ∃ ns, d.options.namespaceName = some ns ∧
        d.options.keySpace = .error (.badNamespace ns
          (.malformed "Namespace" s!"namespace '{ns}' contains glob characters"))) ∧
      (d.kind = .memory → ∀ files connect,
        d.build files connect = d.options.keySpace.map .memory) ∧
      (d.kind = .redis → ∃ settings, d.settings = .ok settings ∧
        d.address = .ok (settings.host, settings.port) ∧
        (∀ e, settings.check = .error e → ∀ files connect,
          d.build files connect = .error (.noConnection d.source e)) ∧
        (settings.check = .ok () → ∀ files connect,
          (∀ e, connect settings = .error e →
            d.build files connect = .error (.noConnection d.source e)) ∧
          (connect settings = .ok () →
            d.build files connect = d.options.keySpace.map (.server settings))) ∧
        ((∀ c ∈ settings.host.toList, Server.Address.isPathStart c = false) →
          (settings.check = .ok () ↔
            Server.Address.IsHost (Server.Address.named settings.host.toList))))) := by
  refine ⟨fun files env path c hload hd => hd ▸ Config.validate_of_load hload, fun h => ?_⟩
  obtain ⟨hkindly, hname⟩ := DataSource.validate_eq_ok_iff.mp h
  refine ⟨keySpace_of_plain hname, keySpace_of_not_plain hname, ?_, ?_⟩
  · exact fun hkind files connect => DataSource.build_memory hkind h
  · intro hkind
    obtain ⟨host, port, haddress⟩ := DataSource.address_of_validateKind hkind hkindly
    obtain ⟨settings, hsettings, rfl, rfl⟩ := DataSource.settings_of_address haddress
    refine ⟨settings, hsettings, haddress, fun e hcheck files connect => ?_,
      fun hcheck files connect => ⟨fun e hconnect => ?_, fun hconnect => ?_⟩,
      Server.Settings.check_eq_ok_iff⟩
    · rw [DataSource.build_redis hkind h hsettings, hcheck]
      rfl
    · rw [DataSource.build_redis hkind h hsettings, hcheck]
      simp only [bind, Except.bind, hconnect, Except.mapError]
    · rw [DataSource.build_redis hkind h hsettings, hcheck]
      simp only [bind, Except.bind, hconnect, Except.mapError]

/-- The configuration of a deployment on a server. -/
def serverText : String :=
  "\x7b\"data_source\":\x7b\"type\":\"redis\",\"source\":\"cache:6380\"," ++
    "\"options\":\x7b\"namespace\":\"staging\"\x7d\x7d\x7d"

/-- A directory with this configuration only. -/
def serverFiles : Files := fun path =>
  if path = "iam.json" then .ok (Utf8.ofString serverText) else .error .missing

theorem passed_sources_are_built_staging :
    (∃ c keys settings, Config.load serverFiles {} "iam.json" = .ok c ∧
      c.dataSource.validate = .ok () ∧ c.dataSource.options.isPlain = true ∧
      c.dataSource.kind = .redis ∧ keys.root = "staging" ∧
      c.dataSource.address = .ok (settings.host, settings.port) ∧ settings.check = .ok () ∧
      c.dataSource.build serverFiles (fun _ => .ok ()) = .ok (.server settings keys)) ∧
    ∃ d : DataSource, d.source = "::1:6379" ∧ d.validate = .ok () ∧
      ∃ e, ∀ files connect, d.build files connect = .error (.noConnection d.source e) := by
  constructor
  · let source : DataSource :=
      { kind := .redis, source := "cache:6380", options := { namespaceName := some "staging" } }
    have hload : Config.load serverFiles {} "iam.json" = .ok { dataSource := source } := by
      decide +kernel
    have hplain : source.options.isPlain = true := by decide +kernel
    have hnamed : source.address = .ok ("cache", 6380) := by decide +kernel
    obtain ⟨hloaded, hpassed⟩ := passed_sources_are_built source
    have hvalid := hloaded serverFiles {} "iam.json" { dataSource := source } hload rfl
    obtain ⟨hkeys, -, -, hserver⟩ := hpassed hvalid
    obtain ⟨keys, hspace, hroot⟩ := hkeys hplain
    obtain ⟨settings, -, haddress, -, hreached, hcheck⟩ := hserver rfl
    have hhost : settings.host = "cache" := by
      rw [hnamed] at haddress
      exact (Prod.mk.inj (Except.ok.inj haddress)).1.symm
    have hchars : settings.host.toList = ['c', 'a', 'c', 'h', 'e'] := by
      rw [hhost]
      rfl
    have hlooked : settings.check = .ok () := by
      rw [hchars, show Server.Address.named _ = ['c', 'a', 'c', 'h', 'e'] from rfl] at hcheck
      refine (hcheck (by simp [Server.Address.isPathStart])).mpr (.plain (List.cons_ne_nil _ _) ?_)
      simp [Server.Address.forbidden]
    refine ⟨{ dataSource := source }, keys, settings, hload, hvalid, hplain, rfl, hroot, haddress,
      hlooked, ?_⟩
    rw [(hreached hlooked serverFiles fun _ => .ok ()).2 rfl, hspace]
    rfl
  · let source : DataSource := { kind := .redis, source := "::1:6379" }
    have hvalid : source.validate = .ok () := by decide +kernel
    obtain ⟨-, -, -, hserver⟩ := (passed_sources_are_built source).2 hvalid
    obtain ⟨settings, hsettings, -, hrefused, -⟩ := hserver rfl
    have hcheck : settings.check = .error (.configuration "Url Error: EmptyHost") := by
      have hread : source.settings = .ok { host := "::1", port := 6379 } := by decide +kernel
      rw [Except.ok.inj (hsettings.symm.trans hread)]
      decide +kernel
    exact ⟨source, rfl, hvalid, _, hrefused _ hcheck⟩

/-- A namespace passes in which a character has a meaning in patterns. -/
theorem patterned_namespace_passes :
    ¬ ∀ d : DataSource, d.validate = .ok () → d.kind = .redis ∨ d.kind = .memory →
      ∃ keys, d.options.keySpace = .ok keys := by
  intro h
  let source : DataSource := { kind := .memory, options := { namespaceName := some "bad*" } }
  obtain ⟨keys, hkeys⟩ := h source (by decide +kernel) (.inr rfl)
  have hrefused : source.options.keySpace = .error (.badNamespace "bad*"
      (.malformed "Namespace" "namespace 'bad*' contains glob characters")) := rfl
  rw [hrefused] at hkeys
  cases hkeys

end IdentityStore
