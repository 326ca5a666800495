import Deposit.CommandLine.Run
import Deposit.Proofs.Text.Dictionary

/-!
Where the settings of a command come from: flags, variables of the environment, and defaults.

Two of the variables are read twice, once for the flags that they stand in for
(`value?_addVariables`), and once with the other variables (`Config.readEnvironment_eq`). Both
readings come to one configuration, in which a flag counts before a variable and a variable
before the default (`Config.settings`). The environment has to give a configuration of its own,
which is validated before the flags are looked at, so a flag does not replace a variable that
cannot be used.

* `configure_settings`: what a command makes of flags and environment.
-/

namespace Deposit

/-! ### The environment -/

/-- What the flags of a command line say about storage and repository. -/
structure CommandLine.Flags where
  storageUrl : Option String
  node : Option String
  network : Option Network
  deriving DecidableEq, Repr

/-- No flags. -/
def CommandLine.Flags.none : Flags := ⟨.none, .none, .none⟩

namespace Config

open CommandLine (Flags)

variable {environment : Environment} {config : Config} {α : Type}

/-- The settings in force: what a flag says, or else what a variable says, or else the
default. A blank address of the storage service counts as none. -/
def settings (environment : Environment) (flags : Flags) : Config where
  storageApiUrl := flags.storageUrl.or <|
    (environment.lookup "GIRDER_API_URL").filter fun value => !Blank.isBlankText value
  memberNode := (flags.node.or (environment.lookup "DATAONE_NODE")).getD default.memberNode
  network := flags.network.or <|
    (environment.lookup "TALE_PUBLISH_NETWORK").bind fun value => (Network.ofText value).toOption
  licenseDirectory :=
    (environment.lookup "TALE_PUBLISH_LICENSE_DIR").getD default.licenseDirectory
  timeoutMilliseconds :=
    (((environment.lookup "TALE_PUBLISH_TIMEOUT_SECS").bind DescriptiveRecord.size?).map
      (1000 * ·)).getD default.timeoutMilliseconds
  userAgent := (environment.lookup "TALE_PUBLISH_USER_AGENT").getD default.userAgent

/-- The variables that hold a network or a number of seconds hold one. -/
structure Readable (environment : Environment) : Prop where
  network : ∀ value, environment.lookup "TALE_PUBLISH_NETWORK" = some value →
    ∃ network, (Network.ofText value).toOption = some network
  timeout : ∀ value, environment.lookup "TALE_PUBLISH_TIMEOUT_SECS" = some value →
    ∃ seconds, DescriptiveRecord.size? value = some seconds

/-- What a variable is read as, if it is set. -/
def readVariable (environment : Environment) (key : String) (read : String → Option α) :
    Except ConfigError (Option α) :=
  match environment.lookup key with
  | none => .ok none
  | some value =>
    match read value with
    | some a => .ok (some a)
    | none => .error (unreadable key value)

theorem readVariable_eq_ok_iff {key : String} {read : String → Option α} {a? : Option α} :
    readVariable environment key read = .ok a? ↔
      (∀ value, environment.lookup key = some value → ∃ a, read value = some a) ∧
        a? = (environment.lookup key).bind read := by
  rw [readVariable]
  cases environment.lookup key with
  | none => simp [eq_comm]
  | some value => cases said : read value <;> simp [said, eq_comm]

/-- A variable that is any text. -/
theorem withVariable_text (environment : Environment) (key : String)
    (set : Option String → Config → Config)
    {step : String → Config → Except ConfigError Config}
    (unset : set none config = config)
    (known : ∀ value, step value config = .ok (set (some value) config)) :
    withVariable environment key step config = .ok (set (environment.lookup key) config) := by
  rw [withVariable]
  cases environment.lookup key with
  | none => exact congrArg Except.ok unset.symm
  | some value => exact known value

/-- A variable that has to be read. -/
theorem withVariable_read (environment : Environment) (key : String) (read : String → Option α)
    (set : Option α → Config → Config)
    {step : String → Config → Except ConfigError Config}
    (unset : set none config = config)
    (known : ∀ value, step value config =
      (read value).elim (.error (unreadable key value)) fun a => .ok (set (some a) config)) :
    withVariable environment key step config =
      (readVariable environment key read).map fun a? => set a? config := by
  rw [withVariable, readVariable]
  cases environment.lookup key with
  | none => exact congrArg Except.ok unset.symm
  | some value =>
      refine (known value).trans ?_
      cases said : read value <;> simp [said, Except.map]

/-- The environment is read variable by variable: two of them may fail. -/
theorem readEnvironment_eq (environment : Environment) :
    readEnvironment environment =
      (readVariable environment "TALE_PUBLISH_NETWORK" fun value =>
        (Network.ofText value).toOption).bind fun network =>
          (readVariable environment "TALE_PUBLISH_TIMEOUT_SECS" DescriptiveRecord.size?).map
            fun seconds => { settings environment .none with
              network
              timeoutMilliseconds :=
                (seconds.map (1000 * ·)).getD default.timeoutMilliseconds } := by
  simp only [readEnvironment, bind, Except.bind]
  rw [withVariable_text environment "GIRDER_API_URL" fun url? config => { config with
    storageApiUrl := (url?.filter fun value => !Blank.isBlankText value).or config.storageApiUrl }]
  case unset => rfl
  case known =>
    intro value
    cases blank : Blank.isBlankText value <;> simp [blank, Option.filter]
  dsimp only
  rw [withVariable_text environment "DATAONE_NODE" fun node? config =>
    { config with memberNode := node?.getD config.memberNode }]
  case unset => rfl
  case known => exact fun _ => rfl
  dsimp only
  rw [withVariable_read environment "TALE_PUBLISH_NETWORK"
    (fun value => (Network.ofText value).toOption)
    fun network? config => { config with network := network?.or config.network }]
  case unset => rfl
  case known => exact fun value => by cases Network.ofText value <;> rfl
  cases readVariable environment "TALE_PUBLISH_NETWORK"
    fun value => (Network.ofText value).toOption with
  | error e => rfl
  | ok network? =>
      simp only [Except.map]
      rw [withVariable_text environment "TALE_PUBLISH_LICENSE_DIR" fun directory? config =>
        { config with licenseDirectory := directory?.getD config.licenseDirectory }]
      case unset => rfl
      case known => exact fun _ => rfl
      dsimp only
      rw [withVariable_read environment "TALE_PUBLISH_TIMEOUT_SECS" DescriptiveRecord.size?
        fun seconds? config => { config with
          timeoutMilliseconds := (seconds?.map (1000 * ·)).getD config.timeoutMilliseconds }]
      case unset => rfl
      case known => exact fun value => by cases DescriptiveRecord.size? value <;> rfl
      cases readVariable environment "TALE_PUBLISH_TIMEOUT_SECS" DescriptiveRecord.size? with
      | error e => rfl
      | ok seconds? =>
          simp only [Except.map]
          rw [withVariable_text environment "TALE_PUBLISH_USER_AGENT" fun agent? config =>
            { config with userAgent := agent?.getD config.userAgent }]
          case unset => rfl
          case known => exact fun _ => rfl
          simp [settings, Flags.none, default]

/-- The environment is read exactly if its variables are, and then its settings are those
without flags. -/
theorem readEnvironment_eq_ok_iff :
    readEnvironment environment = .ok config ↔
      Readable environment ∧ config = settings environment .none := by
  rw [readEnvironment_eq]
  constructor
  · intro read
    cases network : readVariable environment "TALE_PUBLISH_NETWORK"
      fun value => (Network.ofText value).toOption with
    | error e =>
        rw [network] at read
        cases read
    | ok network? =>
        cases timeout : readVariable environment "TALE_PUBLISH_TIMEOUT_SECS"
          DescriptiveRecord.size? with
        | error e =>
            rw [network, timeout] at read
            cases read
        | ok seconds? =>
            rw [network, timeout] at read
            cases read
            obtain ⟨named, rfl⟩ := readVariable_eq_ok_iff.mp network
            obtain ⟨numbered, rfl⟩ := readVariable_eq_ok_iff.mp timeout
            exact ⟨⟨named, numbered⟩, rfl⟩
  · rintro ⟨readable, rfl⟩
    rw [readVariable_eq_ok_iff.mpr ⟨readable.network, rfl⟩,
      readVariable_eq_ok_iff.mpr ⟨readable.timeout, rfl⟩]
    rfl

/-- A configuration that is validated. -/
theorem validated_eq_ok_iff {result : Config} :
    (do config.validate; pure config : Except ConfigError Config) = .ok result ↔
      result = config ∧ config.validate = .ok () := by
  cases valid : config.validate with
  | error e => simp [bind, Except.bind]
  | ok _ => simp [bind, Except.bind, pure, Except.pure, eq_comm]

/-- The configuration of the environment alone. -/
theorem ofEnvironment_eq_ok_iff :
    ofEnvironment environment = .ok config ↔
      Readable environment ∧ config = settings environment .none ∧ config.validate = .ok () := by
  rw [← and_assoc, ← readEnvironment_eq_ok_iff, ofEnvironment]
  cases read : readEnvironment environment with
  | error e => simp [bind, Except.bind]
  | ok own =>
      refine validated_eq_ok_iff.trans ?_
      rw [Except.ok.injEq, eq_comm]
      exact and_congr_right fun same => by rw [same]

end Config

namespace CommandLine

/-! ### Variables that stand in for options -/

/-- The value of the variable that stands in for an option. -/
def CommandOption.held (environment : Environment) (o : CommandOption) : Option String :=
  o.standIn.bind fun name => environment.lookup name

theorem exists_value_of_any {entries : List (String × String)} {name : String}
    (given : entries.any (·.1 == name) = true) : ∃ value, entries.lookup name = some value := by
  rw [← Dictionary.mem_keys_iff]
  simpa using given

/-- One variable is added if its option is not given. -/
theorem value?_addVariable (environment : Environment) (given : Given) (o : CommandOption)
    (name : String) :
    (addVariables environment given [o]).value? name =
      (given.value? name).or (if o.name = name then o.held environment else none) := by
  rw [addVariables, List.foldl_cons, List.foldl_nil, CommandOption.held]
  cases o.standIn.bind fun name => environment.lookup name with
  | none => simp
  | some value =>
      by_cases there : given.options.any (·.1 == o.name) = true
      · obtain ⟨value', found⟩ := exists_value_of_any there
        by_cases same : o.name = name
        · simp [there, Given.value?, ← same, found]
        · simp [there, same]
      · simp only [there, Bool.false_eq_true, if_false, Given.value?, List.lookup_append,
          Dictionary.lookup_entry, List.lookup_nil]
        by_cases same : o.name = name
        · simp [same]
        · simp [same, Ne.symm same]

/-- Options that are given count before the variables that stand in for them. -/
theorem value?_addVariables (environment : Environment) (options : List CommandOption)
    (name : String) (given : Given) :
    (addVariables environment given options).value? name =
      (given.value? name).or
        (options.findSome? fun o => if o.name = name then o.held environment else none) := by
  induction options generalizing given with
  | nil => simp [addVariables]
  | cons o rest ih =>
      have step : addVariables environment given (o :: rest) =
          addVariables environment (addVariables environment given [o]) rest := rfl
      rw [step, ih, value?_addVariable, Option.or_assoc, List.findSome?_cons]
      congr 1
      cases (if o.name = name then o.held environment else none) <;> rfl

/-- Among options of different names. -/
theorem value?_addVariables_of_mem {environment : Environment} {options : List CommandOption}
    {given : Given} {o : CommandOption} (apart : (options.map (·.name)).Nodup)
    (listed : o ∈ options) :
    (addVariables environment given options).value? o.name =
      (given.value? o.name).or (o.held environment) := by
  rw [value?_addVariables]
  congr 1
  induction options with
  | nil => cases listed
  | cons first rest ih =>
      obtain ⟨fresh, apart⟩ := List.nodup_cons.mp apart
      rw [List.findSome?_cons]
      rcases List.mem_cons.mp listed with rfl | listed
      · have others : (rest.findSome? fun o' =>
            if o'.name = o.name then o'.held environment else none) = none := by
          refine List.findSome?_eq_none_iff.mpr fun o' among => if_neg fun same => fresh ?_
          exact List.mem_map.mpr ⟨o', among, same⟩
        rw [if_pos rfl, others]
        cases o.held environment <;> rfl
      · have other : first.name ≠ o.name := fun same =>
          fresh (List.mem_map.mpr ⟨o, listed, same.symm⟩)
        rw [if_neg other]
        exact ih apart listed

/-! ### The connection of a command -/

/-- The flags among what has been given. -/
def Given.flags (given : Given) : Flags where
  storageUrl := given.value? "girder-url"
  node := given.value? "node"
  network := (given.value? "network").bind fun name => (Network.ofText name).toOption

variable {environment : Environment} {given : Given} {options : List CommandOption}
  {c : Connection}

/-- A connection holds the values of its options. -/
theorem connection_eq_ok {given : Given} (made : connection given = .ok c) :
    c.storageUrl = given.value? "girder-url" ∧ c.node = given.value? "node" ∧
      c.network = (given.value? "network").bind fun name => (Network.ofText name).toOption := by
  rw [connection] at made
  cases token : given.value "girder-token" with
  | error e =>
      rw [token] at made
      cases made
  | ok token' =>
      rw [token] at made
      cases made
      exact ⟨rfl, rfl, rfl⟩

/-- The connection of a command: flags, and the variables that stand in for them. -/
theorem connection_addVariables (level : options = publishOptions ∨ options = classifyOptions)
    (derived : connection (addVariables environment given options) = .ok c) :
    c.storageUrl = given.flags.storageUrl.or (environment.lookup "GIRDER_API_URL") ∧
      c.node = given.flags.node.or (environment.lookup "DATAONE_NODE") ∧
      c.network = given.flags.network := by
  obtain ⟨url, node, network⟩ := connection_eq_ok derived
  have apart : (options.map (·.name)).Nodup := by
    rcases level with rfl | rfl <;> decide
  have listed : ∀ o ∈ connectionOptions, o ∈ options := by
    rcases level with rfl | rfl <;> decide
  have stands : ∀ o ∈ connectionOptions, (addVariables environment given options).value? o.name =
      (given.value? o.name).or (o.held environment) :=
    fun o among => value?_addVariables_of_mem apart (listed o among)
  simp only [connectionOptions, List.forall_mem_cons] at stands
  obtain ⟨ofUrl, -, ofNode, ofNetwork, -⟩ := stands
  -- No variable stands in for the network.
  rw [CommandOption.held, Option.bind_none, Option.or_none] at ofNetwork
  rw [ofNetwork] at network
  exact ⟨url.trans ofUrl, node.trans ofNode, network⟩

/-- What a command makes of the configuration of the environment. -/
theorem configure_eq_ok_iff {config : Config} :
    configure environment c = .ok config ↔ ∃ own, Config.ofEnvironment environment = .ok own ∧
      config = { own with
        storageApiUrl := c.storageUrl.or own.storageApiUrl
        memberNode := c.node.getD own.memberNode
        network := c.network.or own.network } ∧
      config.validate = .ok () := by
  rw [configure]
  cases Config.ofEnvironment environment with
  | error e => simp [bind, Except.bind]
  | ok own =>
      refine Config.validated_eq_ok_iff.trans ?_
      simp only [Except.ok.injEq, exists_eq_left']
      exact and_congr_right fun same => by rw [same]

/-- The configuration of the environment with the flags, and the variables that stand in for them,
laid over it has the settings in force, unless the address of the storage service comes from a
blank variable. -/
theorem settings_overlay {environment : Environment} {flags : Flags}
    (unblank : flags.storageUrl = none → ∀ url, environment.lookup "GIRDER_API_URL" = some url →
      Blank.isBlankText url = false) :
    { Config.settings environment .none with
      storageApiUrl := (flags.storageUrl.or (environment.lookup "GIRDER_API_URL")).or
        (Config.settings environment .none).storageApiUrl
      memberNode := (flags.node.or (environment.lookup "DATAONE_NODE")).getD
        (Config.settings environment .none).memberNode
      network := flags.network.or (Config.settings environment .none).network } =
      Config.settings environment flags := by
  obtain ⟨url?, node?, network?⟩ := flags
  have address : (url?.or (environment.lookup "GIRDER_API_URL")).or
      (Config.settings environment .none).storageApiUrl =
        (Config.settings environment ⟨url?, node?, network?⟩).storageApiUrl := by
    cases url? with
    | some url => rfl
    | none =>
        cases held : environment.lookup "GIRDER_API_URL" with
        | none => simp [Config.settings, Flags.none, held]
        | some url =>
            simp [Config.settings, Flags.none, held, unblank rfl url held, Option.filter]
  have node : (node?.or (environment.lookup "DATAONE_NODE")).getD
      (Config.settings environment .none).memberNode =
        (Config.settings environment ⟨url?, node?, network?⟩).memberNode := by
    cases node? with
    | some node => rfl
    | none =>
        cases held : environment.lookup "DATAONE_NODE" <;>
          simp [Config.settings, Flags.none, held]
  rw [address, node]
  rfl

/-- **What a command makes of flags and environment.** It has a configuration exactly if the
environment gives one of its own and the settings in force pass the validation, and then they are
the configuration. The environment gives one if its variables can be read and pass the validation
as they are: a flag does not replace a variable that cannot be used. -/
theorem configure_settings (level : options = publishOptions ∨ options = classifyOptions)
    (derived : connection (addVariables environment given options) = .ok c)
    (unblank : given.flags.storageUrl = none → ∀ url,
      environment.lookup "GIRDER_API_URL" = some url → Blank.isBlankText url = false) :
    (∀ config, configure environment c = .ok config ↔
      (∃ own, Config.ofEnvironment environment = .ok own) ∧
        config = Config.settings environment given.flags ∧ config.validate = .ok ()) ∧
    (∀ own, Config.ofEnvironment environment = .ok own ↔
      Config.Readable environment ∧ own = Config.settings environment .none ∧
        own.validate = .ok ()) ∧
    (∀ e, Config.ofEnvironment environment = .error e → configure environment c = .error e) ∧
    (given.flags = .none → configure environment c = Config.ofEnvironment environment) := by
  obtain ⟨url, node, network⟩ := connection_addVariables level derived
  have configured : ∀ config, configure environment c = .ok config ↔
      (∃ own, Config.ofEnvironment environment = .ok own) ∧
        config = Config.settings environment given.flags ∧ config.validate = .ok () := by
    intro config
    rw [configure_eq_ok_iff, ← settings_overlay unblank, url, node, network]
    constructor
    · rintro ⟨own, gives, made, valid⟩
      obtain ⟨-, rfl, -⟩ := Config.ofEnvironment_eq_ok_iff.mp gives
      exact ⟨⟨_, gives⟩, made, valid⟩
    · rintro ⟨⟨own, gives⟩, made, valid⟩
      obtain ⟨-, rfl, -⟩ := Config.ofEnvironment_eq_ok_iff.mp gives
      exact ⟨_, gives, made, valid⟩
  have refused : ∀ e, Config.ofEnvironment environment = .error e →
      configure environment c = .error e := by
    intro e fails
    rw [configure, fails]
    rfl
  refine ⟨configured, fun own => Config.ofEnvironment_eq_ok_iff, refused, fun flagless => ?_⟩
  cases gives : Config.ofEnvironment environment with
  | error e => exact refused e gives
  | ok own =>
      obtain ⟨-, rfl, valid⟩ := Config.ofEnvironment_eq_ok_iff.mp gives
      exact (configured _).mpr ⟨⟨_, gives⟩, by rw [flagless], valid⟩

/-- A node on the command line counts before the one of the environment, from which the address
of the storage service comes. -/
theorem configure_settings_of_both :
    let environment : Environment :=
      [("GIRDER_API_URL", "https://girder.wholetale.org/api/v1"),
       ("DATAONE_NODE", "https://dev.nceas.ucsb.edu/knb/d1/mn/v2")]
    let given : Given :=
      ⟨[("girder-token", "token"), ("node", "https://knb.ecoinformatics.org/knb/d1/mn/v2")],
        ["item"]⟩
    ∃ c, connection (addVariables environment given classifyOptions) = .ok c ∧
      configure environment c = .ok
        { Config.default with
          storageApiUrl := some "https://girder.wholetale.org/api/v1"
          memberNode := "https://knb.ecoinformatics.org/knb/d1/mn/v2" } := by
  intro environment given
  have derived : connection (addVariables environment given classifyOptions) = .ok
      ⟨some "https://girder.wholetale.org/api/v1", "token",
        some "https://knb.ecoinformatics.org/knb/d1/mn/v2", none⟩ := by decide +kernel
  have unblank : given.flags.storageUrl = none → ∀ url,
      environment.lookup "GIRDER_API_URL" = some url → Blank.isBlankText url = false := by
    rintro - url found
    cases found
    decide +kernel
  have gives : Config.ofEnvironment environment = .ok (Config.settings environment .none) := by
    decide +kernel
  exact ⟨_, derived, ((configure_settings (.inr rfl) derived unblank).1 _).mpr
    ⟨⟨_, gives⟩, by decide +kernel, by decide +kernel⟩⟩

/-- A good node on the command line does not help against a bad one in the environment: the
settings in force pass the validation, and still there is no configuration. A blank address of the
storage service counts as none for the environment, but not where it stands in for a flag. -/
theorem configure_shadowed_or_blank :
    (let environment : Environment := [("DATAONE_NODE", "knb")]
      let given : Given :=
        ⟨[("girder-token", "token"), ("node", "https://knb.ecoinformatics.org/knb/d1/mn/v2")],
          ["item"]⟩
      ∃ c, connection (addVariables environment given classifyOptions) = .ok c ∧
        (Config.settings environment given.flags).validate = .ok () ∧
        configure environment c = .error
          (.validationFailed "member_node must be an http(s) URL, got 'knb'")) ∧
    (let environment : Environment := [("GIRDER_API_URL", " ")]
      let given : Given := ⟨[("girder-token", "token")], ["item"]⟩
      ∃ c, connection (addVariables environment given classifyOptions) = .ok c ∧
        given.flags = .none ∧ (Config.settings environment .none).validate = .ok () ∧
        configure environment c = .error
          (.validationFailed "storage_api_url is not a valid URL: ' '")) :=
  ⟨⟨⟨none, "token", some "https://knb.ecoinformatics.org/knb/d1/mn/v2", none⟩,
      by decide +kernel, by decide +kernel, by decide +kernel⟩,
    ⟨⟨some " ", "token", none, none⟩,
      by decide +kernel, by decide +kernel, by decide +kernel, by decide +kernel⟩⟩

end CommandLine

end Deposit
