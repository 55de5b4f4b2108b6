/-!
# The fields of a service

Every setting of a service is a `ServiceField`.

* `ServiceField.all` lists them in the order in which a configuration is printed;
* `key` is the name of a field in a manifest, `ofKey?` the field of a name;
* `kind` says what the field holds.
-/

namespace ComposeMerge

/-- What a field holds, and in which spellings it may be written. -/
inductive FieldKind where
  /-- A text, written as any scalar. -/
  | text
  /-- An integer, written as a number or as text. -/
  | count
  /-- A size in bytes, written as a number or as text with a unit. -/
  | size
  /-- A truth value. -/
  | flag
  /-- Texts, written as one text or as a list. -/
  | list
  /-- The words of a command, written as a list or as one text to be cut. -/
  | command
  /-- `KEY=VALUE` texts, written as a list or as a mapping. -/
  | pairs
  /-- Texts by name, written as a mapping or as a list of `KEY=VALUE` texts. -/
  | labels
  /-- Service names, written as a list or as the keys of a mapping. -/
  | dependencies
  /-- Build settings, written as a mapping or as the context alone. -/
  | build
  /-- The service to inherit from. -/
  | inheritance
  /-- Logging settings. -/
  | logging
  /-- Networks by name, written as a mapping or as a list of names. -/
  | networks
  /-- Resource limits by name. -/
  | ulimits
  deriving DecidableEq

/-- The fields of a service. -/
inductive ServiceField where
  | build
  | capAdd
  | capDrop
  | cgroupParent
  | command
  | containerName
  | cpuShares
  | cpuQuota
  | cpuset
  | dependsOn
  | devices
  | dns
  | dnsOpt
  | dnsSearch
  | domainname
  | entrypoint
  | envFile
  | environment
  | expose
  | inheritance
  | externalLinks
  | extraHosts
  | groupAdd
  | hostname
  | image
  | ipc
  | labels
  | links
  | logging
  | macAddress
  | memLimit
  | memSwappiness
  | memswapLimit
  | networkMode
  | networks
  | oomKillDisable
  | oomScoreAdj
  | pid
  | ports
  | privileged
  | readOnly
  | restart
  | securityOpt
  | shmSize
  | stdinOpen
  | stopSignal
  | tmpfs
  | tty
  | ulimits
  | user
  | uts
  | volumeDriver
  | volumes
  | volumesFrom
  | workingDir
  deriving DecidableEq

namespace ServiceField

/-- The fields in the order in which they are printed. -/
def all : List ServiceField :=
  [.build, .capAdd, .capDrop, .cgroupParent, .command, .containerName, .cpuShares, .cpuQuota,
   .cpuset, .dependsOn, .devices, .dns, .dnsOpt, .dnsSearch, .domainname, .entrypoint, .envFile,
   .environment, .expose, .inheritance, .externalLinks, .extraHosts, .groupAdd, .hostname, .image,
   .ipc, .labels, .links, .logging, .macAddress, .memLimit, .memSwappiness, .memswapLimit,
   .networkMode, .networks, .oomKillDisable, .oomScoreAdj, .pid, .ports, .privileged, .readOnly,
   .restart, .securityOpt, .shmSize, .stdinOpen, .stopSignal, .tmpfs, .tty, .ulimits, .user, .uts,
   .volumeDriver, .volumes, .volumesFrom, .workingDir]

/-- The name of a field in a manifest. -/
def key : ServiceField → String
  | .build => "build"
  | .capAdd => "cap_add"
  | .capDrop => "cap_drop"
  | .cgroupParent => "cgroup_parent"
  | .command => "command"
  | .containerName => "container_name"
  | .cpuShares => "cpu_shares"
  | .cpuQuota => "cpu_quota"
  | .cpuset => "cpuset"
  | .dependsOn => "depends_on"
  | .devices => "devices"
  | .dns => "dns"
  | .dnsOpt => "dns_opt"
  | .dnsSearch => "dns_search"
  | .domainname => "domainname"
  | .entrypoint => "entrypoint"
  | .envFile => "env_file"
  | .environment => "environment"
  | .expose => "expose"
  | .inheritance => "extends"
  | .externalLinks => "external_links"
  | .extraHosts => "extra_hosts"
  | .groupAdd => "group_add"
  | .hostname => "hostname"
  | .image => "image"
  | .ipc => "ipc"
  | .labels => "labels"
  | .links => "links"
  | .logging => "logging"
  | .macAddress => "mac_address"
  | .memLimit => "mem_limit"
  | .memSwappiness => "mem_swappiness"
  | .memswapLimit => "memswap_limit"
  | .networkMode => "network_mode"
  | .networks => "networks"
  | .oomKillDisable => "oom_kill_disable"
  | .oomScoreAdj => "oom_score_adj"
  | .pid => "pid"
  | .ports => "ports"
  | .privileged => "privileged"
  | .readOnly => "read_only"
  | .restart => "restart"
  | .securityOpt => "security_opt"
  | .shmSize => "shm_size"
  | .stdinOpen => "stdin_open"
  | .stopSignal => "stop_signal"
  | .tmpfs => "tmpfs"
  | .tty => "tty"
  | .ulimits => "ulimits"
  | .user => "user"
  | .uts => "uts"
  | .volumeDriver => "volume_driver"
  | .volumes => "volumes"
  | .volumesFrom => "volumes_from"
  | .workingDir => "working_dir"

/-- What a field holds. -/
def kind : ServiceField → FieldKind
  | .cgroupParent | .containerName | .cpuset | .domainname | .hostname | .image | .ipc |
    .macAddress | .networkMode | .pid | .restart | .stopSignal | .user | .uts | .volumeDriver |
    .workingDir => .text
  | .cpuShares | .cpuQuota | .memSwappiness | .oomScoreAdj => .count
  | .memLimit | .memswapLimit | .shmSize => .size
  | .oomKillDisable | .privileged | .readOnly | .stdinOpen | .tty => .flag
  | .capAdd | .capDrop | .devices | .dns | .dnsOpt | .dnsSearch | .envFile | .expose |
    .externalLinks | .groupAdd | .links | .ports | .securityOpt | .tmpfs | .volumes |
    .volumesFrom => .list
  | .command | .entrypoint => .command
  | .environment | .extraHosts => .pairs
  | .labels => .labels
  | .dependsOn => .dependencies
  | .build => .build
  | .inheritance => .inheritance
  | .logging => .logging
  | .networks => .networks
  | .ulimits => .ulimits

/-- The field of a name. -/
def ofKey? (name : String) : Option ServiceField := all.find? fun f => f.key = name

theorem mem_all (f : ServiceField) : f ∈ all := by
  cases f <;> decide

theorem nodup_keys : (all.map key).Nodup := by
  decide +kernel

theorem ofKey?_key (f : ServiceField) : ofKey? f.key = some f := by
  cases f <;> decide +kernel

theorem key_of_ofKey? {name : String} {f : ServiceField} (h : ofKey? name = some f) :
    f.key = name := by
  simpa using List.find?_some h

theorem key_injective {f g : ServiceField} (h : f.key = g.key) : f = g := by
  have hf := ofKey?_key f
  rw [h, ofKey?_key] at hf
  exact (Option.some.inj hf).symm

end ServiceField
end ComposeMerge
