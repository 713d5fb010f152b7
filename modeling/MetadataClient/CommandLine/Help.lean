/-! What the command says about itself. -/
namespace MetadataClient.CommandLine

def helpText : String :=
  "Write or print the Tessera client configuration

Usage: tessera-config [OPTIONS]

Options:
      --local                             Use the configuration of the current user
      --global                            Use the system-wide configuration
      --print                             Print the configuration instead of writing it
      --data <host1,host2>                Data servers to use
      --metadata <host1,host2>            Metadata servers to use
      --storage-backend <null|gio|posix>  Storage backend to use
      --storage-path </path/to/storage>   Storage path to use
      --log-level <LOG_LEVEL>             Log level [default: warn]
  -h, --help                              Print help
  -V, --version                           Print version
"

def versionText : String :=
  "tessera-config 0.1.0\n"

end MetadataClient.CommandLine
