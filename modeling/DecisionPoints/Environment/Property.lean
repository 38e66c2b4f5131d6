/-!
The system properties of the analyzed program that depend on its environment. Each has the dotted
name under which the program reads it and a key for configuration documents.
-/
namespace DecisionPoints

inductive Property where
  | osName
  | osVersion
  | osArch
  | fileSeparator
  | pathSeparator
  | lineSeparator
  | userLanguage
  | userScript
  | userCountry
  | userVariant
  | fileEncoding
  | sunJnuEncoding
  | sunStdoutEncoding
  | sunStderrEncoding
  | sunIoUnicodeEncoding
  | sunCpuIsalist
  | sunCpuEndian
  | httpProxyHost
  | httpProxyPort
  | httpsProxyHost
  | httpsProxyPort
  | ftpProxyHost
  | ftpProxyPort
  | socksProxyHost
  | socksProxyPort
  | gopherProxySet
  | gopherProxyHost
  | gopherProxyPort
  | httpNonProxyHosts
  | ftpNonProxyHosts
  | socksNonProxyHosts
deriving DecidableEq, Repr

namespace Property

def all : List Property :=
  [.osName, .osVersion, .osArch, .fileSeparator, .pathSeparator, .lineSeparator, .userLanguage,
   .userScript, .userCountry, .userVariant, .fileEncoding, .sunJnuEncoding, .sunStdoutEncoding,
   .sunStderrEncoding, .sunIoUnicodeEncoding, .sunCpuIsalist, .sunCpuEndian, .httpProxyHost,
   .httpProxyPort, .httpsProxyHost, .httpsProxyPort, .ftpProxyHost, .ftpProxyPort, .socksProxyHost,
   .socksProxyPort, .gopherProxySet, .gopherProxyHost, .gopherProxyPort, .httpNonProxyHosts,
   .ftpNonProxyHosts, .socksNonProxyHosts]

def name : Property → String
  | .osName => "os.name"
  | .osVersion => "os.version"
  | .osArch => "os.arch"
  | .fileSeparator => "file.separator"
  | .pathSeparator => "path.separator"
  | .lineSeparator => "line.separator"
  | .userLanguage => "user.language"
  | .userScript => "user.script"
  | .userCountry => "user.country"
  | .userVariant => "user.variant"
  | .fileEncoding => "file.encoding"
  | .sunJnuEncoding => "sun.jnu.encoding"
  | .sunStdoutEncoding => "sun.stdout.encoding"
  | .sunStderrEncoding => "sun.stderr.encoding"
  | .sunIoUnicodeEncoding => "sun.io.unicode.encoding"
  | .sunCpuIsalist => "sun.cpu.isalist"
  | .sunCpuEndian => "sun.cpu.endian"
  | .httpProxyHost => "http.proxyHost"
  | .httpProxyPort => "http.proxyPort"
  | .httpsProxyHost => "https.proxyHost"
  | .httpsProxyPort => "https.proxyPort"
  | .ftpProxyHost => "ftp.proxyHost"
  | .ftpProxyPort => "ftp.proxyPort"
  | .socksProxyHost => "socksProxyHost"
  | .socksProxyPort => "socksProxyPort"
  | .gopherProxySet => "gopherProxySet"
  | .gopherProxyHost => "gopherProxyHost"
  | .gopherProxyPort => "gopherProxyPort"
  | .httpNonProxyHosts => "http.nonProxyHosts"
  | .ftpNonProxyHosts => "ftp.nonProxyHosts"
  | .socksNonProxyHosts => "socksNonProxyHosts"

def key : Property → String
  | .osName => "osName"
  | .osVersion => "osVersion"
  | .osArch => "osArch"
  | .fileSeparator => "fileSeparator"
  | .pathSeparator => "pathSeparator"
  | .lineSeparator => "lineSeparator"
  | .userLanguage => "userLanguage"
  | .userScript => "userScript"
  | .userCountry => "userCountry"
  | .userVariant => "userVariant"
  | .fileEncoding => "fileEncoding"
  | .sunJnuEncoding => "sunJnuEncoding"
  | .sunStdoutEncoding => "sunStdoutEncoding"
  | .sunStderrEncoding => "sunStderrEncoding"
  | .sunIoUnicodeEncoding => "sunIoUnicodeEncoding"
  | .sunCpuIsalist => "sunCpuIsalist"
  | .sunCpuEndian => "sunCpuEndian"
  | .httpProxyHost => "httpProxyHost"
  | .httpProxyPort => "httpProxyPort"
  | .httpsProxyHost => "httpsProxyHost"
  | .httpsProxyPort => "httpsProxyPort"
  | .ftpProxyHost => "ftpProxyHost"
  | .ftpProxyPort => "ftpProxyPort"
  | .socksProxyHost => "socksProxyHost"
  | .socksProxyPort => "socksProxyPort"
  | .gopherProxySet => "gopherProxySet"
  | .gopherProxyHost => "gopherProxyHost"
  | .gopherProxyPort => "gopherProxyPort"
  | .httpNonProxyHosts => "httpNonProxyHosts"
  | .ftpNonProxyHosts => "ftpNonProxyHosts"
  | .socksNonProxyHosts => "socksNonProxyHosts"

def ofKey? (key : String) : Option Property := all.find? (·.key = key)

end Property

end DecisionPoints
