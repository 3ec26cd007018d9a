import NginxFastcgi.Fcgi.RequestService

/-!
# Finishing a request

`FCGX_Finish_r` closes both outputs, and keeps the connection if the web server
asked for it and nothing went wrong.
-/

namespace NginxFastcgi.Fcgi

open Foundation

section Finish

variable {requestId : Nat} {fits : requestId < 65536} {ending : Ending}
  {service : RequestService} {records replies : List Record} {data : List UInt8}

end Finish

end NginxFastcgi.Fcgi
