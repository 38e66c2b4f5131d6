import DecisionPoints.Environment.Basic
import DecisionPoints.Text.Blank
import DecisionPoints.Text.Pieces

/-!
The environment of the host of the analysis, a little-endian machine under Linux, by its environment
variables: the locale from `LANG`, proxies from the variables named after their protocols.
-/
namespace DecisionPoints

structure Locale where
  language : Option String := none
  country : Option String := none
deriving DecidableEq, Repr

def Locale.ofString (s : String) : Locale :=
  let name := s.toList.takeWhile fun c => c ≠ '.' && c ≠ '@'
  if String.ofList name ∈ ["", "C", "POSIX"] then {}
  else
    match Pieces.cutFirst? '_' name with
    | some (language, country) => ⟨some (String.ofList language), some (String.ofList country)⟩
    | none => ⟨some (String.ofList name), none⟩

structure Proxy where
  host : String
  port : String
deriving DecidableEq, Repr

def Proxy.ofString? (s : String) : Option Proxy := do
  let unprefixed := Pieces.afterLast "://".toList s.toList
  let authority := (unprefixed.reverse.dropWhile (· = '/')).reverse
  let (host, port) ← Pieces.cutLast? ':' (Pieces.afterLast ['@'] authority)
  if host.isEmpty || port.isEmpty then none
  return ⟨String.ofList host, String.ofList port⟩

def bypassedHosts (s : String) : String :=
  "|".intercalate ((Pieces.split ',' s.toList).map fun host => String.ofList (Blank.trim host))

/-- The environment of a host with these variables. A proxy's own variable in lower case has
precedence over the one in upper case. -/
def Environment.ofHost (architecture : String) (lookup : String → Option String) :
    Environment :=
  let locale := ((lookup "LANG").map Locale.ofString).getD {}
  let proxy? (lower upper : String) : Option Proxy :=
    ((lookup lower).or (lookup upper)).bind Proxy.ofString?
  let http := proxy? "http_proxy" "HTTP_PROXY"
  let https := proxy? "https_proxy" "HTTPS_PROXY"
  let ftp := proxy? "ftp_proxy" "FTP_PROXY"
  let bypassed := (lookup "no_proxy").map bypassedHosts
  ⟨fun
    | .osName => some "Linux"
    | .osArch => some architecture
    | .fileSeparator => some "/"
    | .pathSeparator => some ":"
    | .lineSeparator => some "\n"
    | .userLanguage => locale.language
    | .userCountry => locale.country
    | .fileEncoding | .sunJnuEncoding => some "UTF-8"
    | .sunIoUnicodeEncoding => some "UnicodeLittle"
    | .sunCpuEndian => some "little"
    | .httpProxyHost => http.map (·.host)
    | .httpProxyPort => http.map (·.port)
    | .httpsProxyHost => https.map (·.host)
    | .httpsProxyPort => https.map (·.port)
    | .ftpProxyHost => ftp.map (·.host)
    | .ftpProxyPort => ftp.map (·.port)
    | .httpNonProxyHosts | .ftpNonProxyHosts => bypassed
    | _ => none⟩

end DecisionPoints
