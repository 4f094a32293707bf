import AuthExample.Access
import AuthExample.AuditApi
import AuthExample.AuditDrawer
import AuthExample.AuditExplorer
import AuthExample.AuditHooks
import AuthExample.AuthHealth
import AuthExample.AuthPages
import AuthExample.EmailProviders
import AuthExample.ExpiryPill
import AuthExample.ForceLockout
import AuthExample.Guards
import AuthExample.LiveAlerts
import AuthExample.OAuthConfig
import AuthExample.OtpInput
import AuthExample.PlatformConsole
import AuthExample.PlatformLogin
import AuthExample.PlatformUsers
import AuthExample.Proxy
import AuthExample.PublicApiSnapshot
import AuthExample.SecurityPage
import AuthExample.Seed
import AuthExample.SessionsPage
import AuthExample.SignInTab
import AuthExample.SingleFlight
import AuthExample.TailFeed
import AuthExample.TriggerActions
import AuthExample.UseAuditTail
import AuthExample.UserHistory
import AuthExample.UserRepository
