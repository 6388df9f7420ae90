import Loom.Text.Packed

/-!
# The Table of Names

The names of characters, in the form that `Loom.Text.CharName` reads them.
-/

namespace Loom.Text

def nameTable : Thunk String :=
  .mk fun _ => Packed.unpack 290417
    "vI~)9)c307xG;O|M'&I>nNfxWHEFGUS_+u(tr$kUe4zzDBPzxB6*W^#3^QZO5.i1>e/)5HDeE`IcZ]$@M&g1%u)_ukd3.ov
Jp469/RIl*)Tk'@ZAZ<,8~l<Lth~Nks/BCz<@x^E1dW~`fN;xx'Bg,gC-@u3[IJ(bH6)Eh9i!ip$[R9EMd*wGW$(*f^0duXU-R#4
V>FHBB@Lh;pSULq)tRr?yoz38L+TF~,Cv=O|wQ='<807Dtp.jk0Hu^D[(A$LYl,H~7XGr%_t$6Y3WVL2g_k'~&_p~sc'M`bU,||3
+AWC-#O;Mjz'cqMLFqO1!CgZlX;yQYz'cqMz[Dz&Piw^U$2nHCFm%('~SG&`P]A$7!Q%[_?lUU$`0Ol%bYIR=m`#D#)Q7sUzFb;r
;Xw]vIHWd1tt+]r4jhA#Z.YaVmYO+#l?U#$m$/2]NH?f6I9*hIZgSVDL|wIpYeVcYFa3)TT0/g|QqCGox;sFxeb+Ixe~)yqxl=|S
`lqz&*k)YYB2)Hd(5e%drM#y$SqomQ5!:Sc`Jo?lB|*M=FgJ)'*tN-hNnlSSf|Xm!qRc~*425Z(!R1H<O<A2t|9X!do+3EOAO=_d
Zttgz#jdjK5>9b?%o-)rty63jQb#_Pz-2tW&j-a*t1tGeXqd<`~uA4M-tJCrrKE9bGpS4!**8vv<(jT9Idb0[mV,)|o#q!oEH8e,
@.^ZIu9@5rg4G-U-_~7@Aa3Fz9O#?a#G=U2267UEh=/Vb!o2(l#DJM%p:3.Dpt~x!bm.!VK.sdzkudACFs/2??CY7|33A0!;zSbL
'OfgDCsNP^!NX7)(NfuZx2h[&c/=U<ht^DNIMx/T['2u55Yb<aVBdyKLl5J6AZ^Py]Oox%(d>CMot`xugG=^n^1_>m*jFRWUf#gR
H/MMY~06O_p-I$H6Az%]?Fzvu^>xsBm1|(R@hZCQoR1h=|l)cL+F:lkWzS0jvaZBiTR*qKoEL'35~,<lsi%pm[0eaxkD]Y4z_957
e*JP1:zT&qZP9s2HbD9tAB>^3cX+^m#=w!hu9Znj#eIKWM|H13DpL()M4#NZpx$m#Kr`&_l~kd-&QDg,.NelF%SjhH,r(~=#g4=#
C|W*4_Qppsfk^!SPC*$AFX5'NC$RRo/DF($Vb_D%LHGva_GP)p%;K6u_|Gp#R)hb7-?xP6V41`H``awFi2+&)>s<E79Wb)VYm)qx
H3![D4-tEyF'MwD&>d;g<sNo>'YdOwgVhC'To^0v0WZ:k=tsk>hY#_%DuoSV@-3c2LDeXLGDa6[IS6`v/SFa:6xr>H7g3#]gK=3G
G6n+EKdgq/N>D^'dH:YTqLD0HRJay?;T=%`24]UsJtQhcDot1wY2V6c_+'*1EbFc:;Q+tmtoxU(7/fcKz>YC6z!]05f5fnz!P3mR
]n<=fBDL=5%:$p@dyl,rKGE;]dwq[|>27]'l/HuJJPaR|==nB8S&wEeD)4H(PB<%l8aTl|<Q:8;L#W30K25,FyjVzNHRd:/A^!dt
clRzrg#^&d).mb52ko>`$F,gO?u%P~t&^`G2n2w6V[d6`c-gsXLYr6EGqZ%I,gsf0oI1y;U+;J9Z)F^B#O*9`'Gxy|Z%=Dk*3/-1
]JbkfOE[~:r2jGd8cXt2NGNR/'R.hGOZ7JJECHu)C-gF)3?X=.MLkMgJ*u3^V/l~8bk46fV;@j6Vc$wyfY2DAa%J_2;OGsO6#YP8
4lZ|'i0SThR(xfG$!KQo/n>d?3$~PJcUtrvNH<&WTm<N[)#~%*C]k6'p:-8S%G9Xt-9hh8?EZ4|3$*|oTpu=G54zQQ;s9^=K.Lhf
$xN2a_E]FZj,OBEj?,~fvC~339jUW!HeRn0&C=uWeMk?=Jy2PS:~td!NK4U/b?rQ+J*V4b+mGeHpwu5[5Act&=a.nwo/Ca8I,YEo
91Vg8=ww8??)SJITc1w'6CP!,@ggK)%FHl9o^<Q>C%+EuIBD4-'0=LZr6)7V_vE+oL2'-H:@e|)qj9IA|C~[:L8!_lUFp>?]_Sz7
)'07x*>Hg/TE<n'^,3nteDOP<pj5@6fDYNcS9p9sK*Co;K]ANlLq_>o#gq.-4sh@[Ng!kdY6$eW-Z=$XcSW$Om;MF7`r*z$>J7<*
x3kuAZ.>X2ai#ts:IGJ1!0S<CO!1&s<5&4floab8G4#CvBjaG4gq-wd2Z/U4NQ4:@1XZ#o^4R`:CT~q,I3A~|GA|l4x+Io,J*dGM
aj1=l)~<OFctn3m1p^_>8~|c)jJwT@E#O]b1)%![yDbO:=6`YbV<6g5+0W^uzQODmxnC2_3TzMrDRMtf'-ug)B!vz#.F,1&3ow=i
D#0[[PAzWnP6ob9r*8L]!oiYo#X]5N;c2IZv!@x]a3/b:Q1@IN>z(YXENy0t_TP:|`Jp_vwny&mZJ;g)KY/m(vas22QU%qLDS.1h
p*Vyg=oQ7L;O_0P5M6gN5@L)?6WfmnR?W=IJieXG]hg:]HXF!Yd79@B7sy!^y/:>8$U3*]txO@YO<Y'6,WtdX[kRe$;5/A7-y8Gy
ii9~YyHK>G#kv;bE/+*g68[9p^eaL;kdKkd&hF$JuQ**APO258lr?k2B1fz[b&&E:AF:[>up$`AA,o6v@Y>bJ(xL@@I[8QYir^fQ
aOBpg~5:Dng&8!PFvKXa_6Wzst?O%w7>&$-^n+a'G1cLnQs>p6W`U?+vH'l4]Hg*w>OCA?/j'oQTEOd:DWu_ucv:^@:Yi:/Z5(-Y
!eX`0Zd3QD`@O(w?a~cha~2a!R]OQW]wICr;UdbLWHKbFZL&mfcE([L^/BBz^*#`;~MR<BVdkFp<q+a(Y9>f1lb.5oN)pBex%KX:
)|<WhmCps<u4#AncRm~Q.FiP7wMkkPI8`k9Xj&.#OV=#a+=fK8Br8A-axST8FwEuO)5'B0=i+S/KME0pUbtt]kIib$^1[*M(_]Cj
['.xmk~[F-Fm|-%mOMwrUtQ,8w!]GUMPR&%:+umrbf!a.Qbv/7B%@a+Vu-D@kvD>e@v#_io_hD'B?6G[EZw6f.=_>Y-$-e@]Q,G+
-v=7bhFTt$=?4C%t7kaF>L%2|2P91P/n&>c*AJLC1F`vpWm5GCBIJt!mbS%>9.]lKQKYSB,6p6Vgp`_](>5./fN+|dR0]75]m=$Z
:mAWuQlPC<fe//~j||b|:ii^2NM^A+sGG!$^Oo:-MfXS^-0_*H/jIw/C)<*:>81OCkICx>f%sTrCR(i/0><,W!h1c]9t9Ts,H)-2
1'iA^|v9v&@aD<((X2)6/brU5~zX~]6DD:fcG%'F@;;VlK#9scCboaM(+SqW^)ATk#?8;Y0X/jaIbTY+@KeHM(oXpLo!D7E|:'Nc
>4:7(w|YstZh[*lma^'|Ppn2j0+I)*]9plchVaA-?Rm*i^%P!jmW~m88fVi=FwfY8_,VUVizT5_7mphV!_Q/ier7%|F)?JCv3oNv
3yggJ8xG(qDDfcNj<0q#;PlIM%Gt%M0(>^m#1?3Ju|||-[xVQ;y$_Ft:NJW67WN&*|9W[t3>)V$-9_SebF%DlD]oixS_qmw]UdTD
r0SIl~Cmuti~|a0='HY/H~V?(p8FQ%$_adsb^g3FpGydzlwpI@e%*w[*#hS&yf;+*QPgYPlET55E~i!u==-wM6pKh+/9mf7uEhth
Hi_stwI:Et6gSc;n.eYu9d7c.h|/rlRr0xUP^m3h3?f~sVUea/i]G_oNQXttm+sSARZ?bMj,*O8SpmD47%Oao5%5UFi(a5L|=`ve
lxQ1f#?Yd;!b!ydiB24WK^5_p!:w1'Jp)/7_`]_kvI3'JU:&|gkjH'MjolFek|UCi[NhyIieA,nO^]DF2(Ie!OIW(Q1M>-?NwZm*
,=aTbxy0Y]q$jAw4+9?.v(&]/>xFUt6%atCOC6?TtROvbKqveJwu',@QH*0Gdp'fR/Z|l%gOB$tIhSt)!ial/TJRTL*~M);u-L79
.Ve]1f+|~r<:xbXCZGt]^5B^Ko33pkxTd928;o$^S:CCODHb1]/.Fy+w`1o24J!F#J]U@7msT8T;J/d22?^54xi8m]`i8o,a#9V6
=b0!F=goiHl!>,pK<c,^xQ>Rgq<lh-8s/4mN,D(H~U+.q[EZZj<T|vwZbz*iPLlXI.|_7q(^;'p=Cr7]p&zr,NfS|/4L2)AQoX`y
@R5=8jJu*,FVPWD8Egy<p>b(jZK&.g1W:Z-@Ys/4P')]7V+RO'Hy-rqH3MRqlafXmh&!/x5yYlPA&I)xRGTQSG_o5e6v=wejsjb-
-$CE~?0u~cTL<)@6o*EpYmKE!dRQrDcXm@-3Vr46LUqCC#<5Wx/vf*Hh]3T4UqfqGeq^BoNZg/g$2NwBIa$WRi^vft9FSRxCs+?+
qnyBz0@/oE;lIzJCVCc-^Vk9Kyw,.%(G`FrO%c7T>>NXGXnUZJb-bUajNUFZ#nW7llM[,029[vwJk/RbWd#q)A,AvXrBJ6D/>`XM
vSoT?yobR4_9Nj=!(dgq64@TaEnZ[0Unlnb1|&bqDj93JZGW!!!,&sR13[.n$^ZaK|9aA#FSbI='Fi.D4|ap2jr8>bv2(e_XH_4y
8X?@U=<F!rZqxqG%4lJ9Js;%Oa)0U+]yx<J9Nh4AbOqIcQC1jvD^Xr1LOOJ8YB<b<_ozgYjhOc46ukgD4*B5AMN6AgVm2LF6c@4!
~RCY=g,'&AIKd>Xs'vw-bmmKeno'QmMvH(/,.qChH95,'[ReI&4Vq*YRrJN<.3/_U#]pkvj,mDoL)&f6yARJ!4/f*cY4F~'n)Ce4
(sTG.TslYfrR)~=B8#JDn:i2$nArhBN47z_^'&Wv`g5GjrD5tEQ5<8nMHzgC`nj2kgSQ-pT[HB+#jJOJbu@>r-W2ZD&[po`YPEP0
*5ox`tF;%|o[RO0iv;65z<VOCf~M2($0I9a7YS_JW!q)hN$M6c:rSYFaQvBW`CscYB,5u0@#N8w~z5A?j>Jc^pi5,,kP)bX^Fr;b
#D13vP*.tWsN*CG$I`EMU(>DU<,>&p;6z*R+/5jxXDf)PrGpF,ko0`yvjT-,7Y>+V*YLW:3Fu)>#:2:Kf7BD-b;.P3lF^c8sSbYH
8OQzsI(ml%$cQy7KW!v^~?@oBGrJtb|bU,2In0hXpc`CWbjS'yQ%-L8q*U=krRI3b2X#!ib]cghW3Jx82rYYJeg5,TXB;H2Aabat
Xk-kO@(W`t,YB_'=bvX([-ODq.wR(%E(.4xmHCa4f,O6YNnc+;o@5TOd=q$q6~]stIL*h_B!$]%RcX8M'.LY!Glf5t]0Q<QZ-?S:
M!A5[Ake3M%]K6lN>FEs%Z_yaW&5L$y@Oj>(0L!O'm*86up6X9(/#T<KjF+Ris~1n%_TL1^d'~Y1a8TksybKU!).L(BqtYXKn<L+
~vNBYDA@1CPW'P3EpkTE9zARz!zy!o5mu.S,?O^D0E[Ee8D'd6v~n^;|P/9:>w@j[EPb/0D_f?G@w#-'+=UX+?~7`_y(YX&!V(u6
>2kWxWU='6JT9yoi&kdFiug+nz[3$E4S(-Kx1PEvUk@mXr~$XV|jpN6op*a!jmF+Q%mW6du;ejw34iS&%43';|j_2^SS-Zy$Ky,B
mi`GP8>UFCxz>#6)Qg$JkQ?pEd%`d,`c!+#4aPY&z![k;trQ6|D6x]6U'TTvE2kmEs?1[jL@Nn[zxk9_B(?F#i:h_#UIMRRPKiP+
j|opSoTQlg8+z`wKZ[j,oG:UbeLVHY.*mX<<ta799qM&d1;M>BSnTrZI~/z,3>h1IrrM'PrB#A)wD/w#kf^=:M[aBVql.IpnoZp+
CYz,5Tj+yX@Gu,')p(tT;;B6-5u1wfLwH6*37nIrUUKOzssk4de9<'Q~$a%^Op%BjkX$/k]bx?7ibC4<,;HwTGURk4&4yw^6KXgZ
.'VPR&9p=gOsT,c0WC2#tM0*m;]xN0W*Mx(@^*Ja!bR,[4,z]>3cy*Pv#2t+h%(r)z-y2/M9.m!g[*%)>5[oi9Y(5tib2!#3FX.d
`xwQNcG4lUn<-6rf0vpf-1&O`Z#`T6nDc%:=$kbsK#=|YX&z<sDK]BU@P|:mqbMKi1.70[2nfArnD0oMN+[ZfyQWJqIj?fI@d-9-
n2@uN12k@U&JCV`x/2C1OkN#fU$[RqNz6N]/|I,TVBm6/-*i(Xb/k&?L5!2rE8[DGgG:?D)rp4@j6N$1Mqn@F)TPc#z)-BT:1'qx
54~.(y)hbIb1_dFK9xe+]@B|X'l~k^iWCcK6/^UItLV+,rdO8Yeo`&dinQ7+>``(#$q3Y&R'ZQJ$qua$QbE*MHeW]9Cgf_*^TtNi
Cw211%3FD;EDMyTN6zj8u3Ws[us/_|a*6QRWe*2j<wKltR==bzQ5%:=h-hMS!`)Ka)n0Rem3'Bz7[R(1v<^koJw=IJ.D56,-rP@9
T,'Qzl_(vSkTag'%J]9l7alscp^N(u_4z2q]-d9FGZkn:nr6rvK5i|=w]SDP[Q)QUIh#!AR/`qX!oWP0HzM!:dm!;LM]Nwb[A>Oq
wNK%i1`/KtTDiz;Td2*o$28>3,=']zutE6)>C~QZ~D<H[3VX]q/uV+pWrJQe/TLeOBL):Ig$2wY@9g]>Ygj,Mx~U~mOeB2yF;ZyS
,)R~T#qCWl#GAPP!.@C>y:#<mb76zo=5w$3EcS$S2241WTw!;mJ(,#h.AH=:(l1@xED%kH:,UI;3N[7@[tyI-Gwv!7Zu%&Axz>nU
L5^*<yvxK]u4&j(NHZWvyV#'VYfa|eOSTG`eL~,@Vb.N9[[gQ^-DQ&4S%5*DOmz~$,WjsCS<YSV8>PvJPz!f:i+F>[8pfa?d%!21
jGj>XoWxYp-0]^9d4|A@dBaHGJ*mZe~_:X:g.rf:cG#t/[pDU77U0s4Y)sMQ%jj0K@K?2VV&(15!|w8Uho^iM._3=z5-z.=1y~Zh
,sWP~9R^3h#u<5;,],sBXb;S0=Vct$CJn|xi+9t5py7un@=CLe!qn:H,6/,/cBVl[8R<z/1WI%%^^9U'bPR3a$<Z~K?V4HpsO+/H
HA/Z~%R+'3A&8tL<1]9ACR+kjyHIR|%v$<(6M]7|R0!/9b@I3Z)*B[YQ,nrcs$mPeGsseD>#mn?*`]%lmLs?80`O%E,;rPCH9kS1
cmd1N~%Nk=LD3:Qh3yP_QdAS,oPNk5AZ@=T8_Ls(t4~OS=XFKTS7b`,w!)ry:*bGN'>UM|Hk@uA5+dfB~:^P$5Uzk+]fR>E_OS4&
TYqqba:Qi$M~gU8$R+J-'eYtrQo4Ouv/j[7bQCKxn~9Pb9mfh~u;aB[0=pAAUC6zZ7rjbb]l/r8OW6:K+UR'Fjln9D:ZR|kb+$7@
nDe69Rs@44-,&3L=l^y|CScOH]A!z*'EnO5NOAMd<d4Es,7f*uGG&2P|+I5V~CiB@#0Vj>sYA'qbrocWh!zJ2b:-+wme)s@]-U'2
cPGi|'*JC8)dp*Q-3vWg*>DRjyg0GBX0xnfqI.@oxp#!Bk#>6^=GCte>bA4s3m_LO#!y,R=C_1l26luIaQzQP-*`<wmVj:gG%ao9
`ko[D=Qdv8o>I9e$~]S(^B'WuMKovOCd|$~B`=61+Z-[BDJ#J|;zl4S8Anf;H2WBCyUy.*PzOO4^/=Ld4Z42TTDLuu_^|`c/bqq7
YJV;DQLNSo8-oX9jjO5iCC9IR*2X>BWaN_pO>3uhx!JUD/*)m9pR5J=Oz3Gep!-7b2:Y<-#F|Uk6WWGUiF-DuzC,xs.QWOUx3h1;
m'CMvW:SeR0:mJAJQz*[E1$xnu5R2q>dt`eCh.i4|!jjV&LlXJ=`s;4041#7^It6VwNEcYs4,'$/udGxw|~!'8VeaAxen.?vk^TD
U|!R'>)hUI8)zIK&x>XGg1kH@`YRL-`civFW#m=>.%3;@jGA>0>uPqY->j!C5i>DZVm_J!^dj%mX_Dq*)F?L)a.1MIXgJ%&=*)?W
1>Z|&tTwLrB*&LUv_?~A)N/~91'~.-s<pH*jgY>jKm/5H>;Zfqn:4R<[Lhx1t,WSoPV(f)Dr;h@WeP]?&S;zW3LQ_'Ij:29cwe8+
GUx;V(Fq&D=s.<%o5nOrcI[(&4*m&~iO?%yG&l(2r.GBz60yxFARGS8)GI;XUdsDteY9?uy=i/?[rZSxSlj3$za,4H7@emeV=BYa
T15HLE@~Xvp_[)L+oDi$(UNd!M^*7lHC:g6.<LGe]ZX6yy!3:&F_/nGplgf;(p#YGCaN!dMkn*9gt]FXEtiDK/Z*0_r>yz>vy+1j
OSm%FfFLpku(!at|*Vk?Q$<0=B!s0*$QGHARcpq).)K~rF5&m$FW.jzsWsw]0C6xE<?[*YFU%BK)?;c8c6CRkOb)Od&1%bgg9Z.H
NC8.,0RjWdih`pV<$l@lBO;V`oA%b[)5$iYrEZ1OX1Epx2K-JqVDwd)08ag9<s`.S^&aG;*dPK2`F<Ud1#+gzkUn!eww]@kWOaE`
7+2=N5]D&]MK|BaWTQ-(@Tt@`QUsAugaCuTkI1O/`bj6:FB+,/=@#f~cDAn3,@65$Kxp!?y/)Cf*6,>fNY;i->.9Ej,&Dh7I3To3
bNYd1M:J?Uht]!Boa]Dc|RImn[n>$m><)'*&D#`bw6i%55nu7PKbH6Al:)SI2Baw;l@$zYNdxJvjL9`|9<`~!a+'/a9JhsXQH_]>
8&I?]J&3tw2aBfJ/HbzBCujWvS@ir0+Hm~EHZIHh:*`N-hZFB;86(V4tzS(Z6Qh9!:jIIBod,v_>b(i73uDkiKFo;#HI*ne;o7?*
og>8tM!Yc$Zy6Qg,_wQd+Z&%K#yA~UiF^V5+_&.g.`Bc%Vd@hwg_A(,3q5Y<FRX~J'$Gg|wkY7fGsWhkyI<nAz0&SqA`yW?%;yar
+>A>muP@yWMWHK&@Sdt8^V))Xur*d8%5A?'A,KU^;d;.[(:QAT~k9doNu9@ncD/l1K#&H*wt|cBzU5+%B::q:&td.V17J/q,:<@Q
Y]eN,zv@:$Mo~4I@fu>QDWlQ<J|>ysPxv%;jqb<ns2xW]pC@N>cw?B)!A1'21h;#)+Y>&Zh1v_]RyIzI.^<!$J2Bbvq<+pQ?OjV8
OZ;mH8%NOz`=I<JqkZAS.rYd6uv!h8ur0%Z8;g.oUko3dEG/-E_Kv$*Y>lJy`&[qi24NZ?Vc?9jObj1Qy&lbO,!|fX4$YFZw/k4(
$SJoR/a>S8X*RhEsHN?5ESVw0,[j>^pP$j3GhK`>H)Ur_k+YQI83gygTMH49OS!k39O5&|;Mw5_(lFIEVF+@^+!5;~&>,+'</!J*
U5takj)I'SFws>qVz&itMl>80Mdm%Ks(!|rD9cZA3/:ACc2;emZF#LsJVIy*h`IxP9`T9UJBlIo>vU[),~c@h;z<kpC1Ghw<RB?b
e1aeG_j4<=0iJzjuBkR()Z-<ATb$bECnT.lIKm6QUN7EPd-K)N`#,?Hk_uU[i|FjJN#&-/1o6;&Oy1F:0=PczgS>9Of0F_x]CtvT
b2yJ:[[%BgVhQpP6b76.7E6_ZLIm:y0CIpHcY]Gk%8K-8d=Fp<PMRw'2vN>o@)*>/~6,YY88YODY|zkv*6,bvB*r0;'F$Z]j0sk<
f!vxrLnuY4$x[[Il4Vn|nJB.z@7/6kee^2[`)2myo~Oc8?Q/~ONvIhEq5,wREGHyBTklW[8E$mBcAEsz,8hbiCPb&2Yg8KT_QWzo
4HQcZ*#A6Ai6!bjK@uA1Uv61|i0fe^!(SlahGmNA<d<n85zAOTR1BeI4E-9=e8ZTAA1/,_6y<w~,~db9;JMVoS|SYONdw#M9vy&.
8`y#j9w77i~udKh,:7p2x'ZT1]UWx(+r:Q8tl>oJzy-_x!@]75_ml~$+rMNyzlZ=7!h|&ZThg^t/T0un1qMn'<gxU+VGHri7oC28
~)EG1]'`Kqf2tntr^G|IkFlkO&SSy%mw4|7~3&5.5?=rB4j7.2!s?2-+kuua`_+2OLlRHs;k`7zKiOesZdXknp>FwO.DB^G<;W%^
kR+dOI*@^X(FTy(Mmv=X]PB5g70UnA6--RKOHgg2>mAP(ruC6&0zbr!!G40RWQ!5p8L[4$G7U#Zl$zWqU?R=Q>'aNN,k%tM:Gj_g
qN+8umCvM~WDAD]Dw^4`XnWZ+*H1cPai($|1P0Pc|V9.$ZTS13xQt5`K?ii+b8zd-Umic6S-&L*kY[1+(YNV>~=iLwXaFLBO:;Ag
Vs]!<^W6>,SdZu:X-%'kR~LMsFH*NY9,mE>%k*Wd:K5xJ]UugMeGW!k%9yaMaqiX>(u_Lq0*jnGuM`gn7,d>R3/!#fMpJ/:tyfk]
;v&Q()HPrK~_T48H)wQtnJK'~|2lpA:C>qGf8d.g.w41fCn)%DdK=Hxn~9Y$m)v^zv@G+g|xvPd>>Vk3d4oLHc<CCYn]7D^07<YS
d=IO)+j*[*>hSjPojDPp/&ig2]^WHxPI+n2-49>!kZT'DbXZ]!pwD5n1aV4981@ugd_6#+(*dFJ`Hi#y^&U.3.k_Q1r-AYC#6T6T
hk+.KgArm.4ioe5phYB~R0ya]*=:8l-[f[Jl]zEhp0zHa5guc[,sad2eO.+6I_JM[`0Xl||AN=d6]ZrW(7-G*)SR2$-)+>alA'bP
K~t(qd8)[nI+,`4,lkoNaP(Yvh$C/zmHE^b>0xGIdgp,C=(P_Y*l^#$u=?NY1iocE[>Bj=)mEC3*~n*rO*jyf*0wI0(As^>KTiAj
V'~xat4i(,YXJ37lf<mB_PS)5oVbZ2h5DkZJi&/ZJVEmm);McjhN*f&jT|5ee$or#XWSv<Va;71J-o^BAM?'.X'rVKJgfxpR4SqJ
$=CZxXqjo|ib7c5mV3|w7cbc*=a5VZEKgrc%A[XAmOKbNv>hh3M8GAW^=1Wg=nHv^%dA0i^#H|X&j`S4UL)@ZiiC^,00HE0-OwjK
Iz+8T+H|vq$F[.:=*)S!Rv*aH1z!&I1Ig2eKlc'G.>AI3-i>]]s^'bJHcg@A^Nc#.3UEU9,i[A#Rt,ifX4v/;YW4oLu/D[b<-Aev
XG]VWC)$P[zScUpG7j<#5~#+^[*u(xgimuB;2!'Z8AO<#/l!lhAq+J*3EePi7_yl~7#4]2fCeHMU97qqMyC.GStu]u_^haZ3u4%e
Db]oQcf;`fKMjPaTwEfiZngw$.A:q-97k52a#yN</+*pX]66rHX4A~J=FnZ5<mGE~Yc#YRokI:E^yeR.&^`6Afg#_V+|pu|^uU>B
-3<`hdEaG'brzI6w&fww:[WVSGRiBNyQP4tyXB-@)#1IE[mq?h3K(TsMuW?_u=/FCNrr%*RchifmR:#yQy;`T7;*kd##$Fl!C%H+
:!pdrJtr]/XdX3:xPXd>x~xI'sS~7_fc7+DfXzPOm#PJUy]B)O5a;lj0i6%uSAti:18J;8B)='%Nutt'HB0ZiOie+|Y)vMo'CNfO
x''=iRZ^tNag_ewD0ErYBQ|[ql&7to8Xko?>$e'sB@5:X'4U,T!.$m4A[Qv!=>u6VZ=Z>oRxm:i!*_a@0vPjoaiH[SAe88QxiKq;
zIYzV5P[9Qf(ES)BgeGc=^_4J2lrE)Rwc7zT:'BFI<)>^Mn<T)l,J<'8wF4W=w/Z/.g*qA*vt~R|EQPu!Z[1@5.Y3lt&.[(uW6'r
ZDvRGsWmqe`vp]E`a!J[Jc-/p8lTzp4Y7$KM*A&yanAjj?|Mk$CnH7@u`6vrZX3|Zjnyb0<TFd=3KcMnG/S?9Tk,_kmi:f^>wNO`
x.c?;!:m4=ra>n0#*/)/z)8N%(IAyCYo?..x0vND~b_=.s#jAy+fzCZ&|L^:~rg=f?C'lL2~kYaj*;U0ILZ&[<vY!S*);F1hqpph
qA4!YtYB,4VuC0QNQ53oE4r^6tOd#F%czC`WjE9c/uJ>0yg*4q&&8/-vz|ZYLrcJEQiFuGWhyO>c?S92LlvKd$-E)4</?.mRjq&5
)/@C7v>tEbrPO~V.9A1^L#KBBB;`cI6Y@o(N~7G2')(~x,6#ZV]ohgy~(=c=pV]o~.TY'^dI(#>Oi>[QghM!n!S9R>QWx=t+%UHO
gZw2lgrFz0w)5^a?H?SrrY2HS`&lAMw2%urQ7B*f:RDg>bt^/#FYRo,tF_KF=i8lPqNTA+ac0YzNGBRW0L&MbF6`|gEa~Y61E(@*
s*KA8!3oSd;#J93Zf!H,5&C1^'W5>P:Nzy)P,GX_,;OEr)'(c>h`,(_@b~iA3]5j[[JuY/.5GAo@aX>N6+wRUHGZaL7@z,Y+Mb+!
+@y<P]nWCRV+_0SBRCyHtpU?6*aAFebC'@pq#C#U$oq,'!UyFdG_8tK'VCtC!_v|9:FaL$aO4Z?W<EVr'OF#u,8yOuW0#s+0lSX_
kN2PVxXa9K>h<9fZ:)pt!&b~z]/:u?q3@gmu>Ne[KT1bfWdgWXn.dziOnm'WYRSKJ4[VLYk(m[@^U6-xN!NCo#ECutb,P;v4I-jo
6/_j7R/2_h!nKXBMa)0xw>;-NgwWcGP'TTA|(6'[7eX>B773x/?/J%'SXnbG1[#i$Pr+o<&!Gf&;9mT7Z_-k9M/umrBS)>QeK;%]
v_sI-,AC,'M_l5Xb_t.O,HQa)8#WLZxpYN40fB)Q=<=hd3sL|x:WSHW;,4)FY$U:jh?la#'E'WC+x.]0HQ/TVvWf^y^6ced2hw.c
)R5K$!C>?(seixQ2;:k8$G;Jm|8Q[j%a@)B)jsamH-dH?,w|@LDZ7A[N!Z6=&]~SZU![R<LIc,88IOjKTeP#.qDr17IV<84'T$uw
;-4;D)~.`2xqjSL+-1(cW/3z$l8_=js:<r/K(a,Z^fRQP2<hy`FsZcJ|Y>PHo_^Vl/2Or@CE].FaB9<--E0$m0P.!2Y2!UGr|bvy
7txnTSX*C6t3S?89Ah$L^cCh%1_f60):u!m0u*]zr13nh(F2R'v^2O&@;eS8B-v'2mWS.n%@x!m)[.!5E?.N&cM7mFz_zCHU8|Ae
hJZp/3Z~UqTz'v%ku6g4Gu5X#H6`G`F[dE@7;7u5_XiC3RrUDim=D;5a<]vd[~IA8FAR.f]uH/tD~~YvrPtk~Fr4(:Qkd41R,mx|
To>-2s2%_=C/np|]k|Vl[Y#8pGA?LcaojX:m9g<C#/Wi(Yc6#32V+?]qUXz9nED:@Fd)Qw6H(,v,hYYr9?&l*@'^kzj[[y&p|w3I
VA*[n>rt$XpjeiOIpGFQ!GS:A:%D'-3Q-l+c5WQWl%kLti%hS(.#?ln*?g~cs~=.<AEoioP2]ByD+f]w;e*Lyi<0p``T!ZK6)G,h
,]ak:IjE(5_:nZvIC*-T<S|r:Zrl|D-?~R^DF@k25Fi;,keCpn,.rdWIl7.#3A%t.U4!z+<U?])fZ'DGrGWRdOM3WH&?egoH|8.(
d=0eb6-//];b_pJt#(iU_XoGeJy[a|TdD$wj9Fqtr&f<qN2Mp@'7TjG&w0*k%f.|W03(94'3%Iz5k/fmW%(@o3yO~Sgaq1R5c)%a
ArId-0Z]#c,Vc+ko+0tJg?oUTR$6HA&#MuT$j]u~GXKR?c|RlV>%A;ffs`Q`l+v8V=Hm|y+C?[(3#:S9&Y_5g-wh[+Ngus`-,SVX
VHl`YSzIG_:qQWP_(>UgHJg`84-)_MsIHPIEwTg@%Z?ta*[kJ.qRZW!#`F$V%n[sC.l7VtY/rqunhzdD)eh>pj7_4QUKTJzHP*:L
|ypDn;TRm+omg/*(!.9~4y3c,UhEY5$O^zWp^%+slE*.&*?+IzB1bVF!5^sb^bmiS>Kj>U3p/Z$X6Lv2L8UE2FE/7l?ctU]If6%g
eCR;r*/Dv<rZEAf3un?pKtZ1kW@Wn-2bsYXgC#mQOj?~3AxXIkWhSP^>UrVqLWcVe%^Wh5|u>V|I75^f:@U*T9fe-VC,wLnySgNL
u%szt?25)D;rKjnJ?LMlL$kuXD^WM6%,I(v3oZbQ#U|*bn2EE[Td!(=-KD=pqyn-Oqt#1VY<|E|<Y4SC@v+W&Qfz(z`B/x,ppVj*
@Zd^y&$1&G$<EN==eEJMaR3Qt!92Y/z6A1BW4/wD$/NxuM;.n'hy3]7Hy?]S'aM)j(![o2)HRQ/<.1BQM@3Cv)L.E4wJA~13=;Yf
(Z7e@mH.$k<6NjK@b)AE8N6|JK#Vle|+EElHwhc!5f3L(J,PN90o#h7vm/'`H>$M+Pvsz!:`nyQY7>dwNTZIr@dwwGago2QFJs3|
CUD.PM4Qa#X#rt]/ih?~R]pgn5L`mnnyLr339Ka#h_,p%~'m[diyhh~N`'fZOatzQT3+Fb&]5)nb=^b;;,%_%JMVxy5*?^ij]Rql
!e0.II,z`a+dZwoNgTevZ-=H_8pT?w|)<y]yVm#y3dc~P4U9~c%_Yl]RaVY!QsK;5Cj$,EUvlDoETaN!eY'Mq/I|%tbx9=_.]hU>
_';S8NcLq'AS*2lFqztyrP@BY9RU<yKthNP-Y3DzRfyp4+<3l#82>Kc*WLIxU1*#-C7|MU;0`k%z(=(O~-Mh2w5r$-4-2PZ.TR(;
g<9rmRxRkp:UsS3Mi%3P>9x!89C=MVk*lct5ujptvl&*^LO3Xg5pSHPMGgD++_;$q!^y4$?xhen'LKEZSIqn<Y'N8Q.`ZA@tY?,[
jyIS/pYZA`Db@^Ed30bb1`e&]mQ,>TMIVM5?O8/Puz)14/p*Y9y4Pr#m=e63aY/0Zes^%qq)V)zUfYi9X(x0]mrrT;~hb11[&.U/
9r/q?>]9VmW_D,|F3MPu-5278d[8h/hi4v|Ncc6+Y!NQ%|&Z)u<ND8V-TN@hGVxr*cu.;/02Ue)8&zd>2:GZ27,i2G03hr.TNIb&
C7I;hqgB`]2rlURU4'9bXKjb<1FrjPs0Oq`^F%j1a3QL%R>LR^ifvD|j;OWJ+g9g~#9Pf^_Hr%U|q,&Z<CQP?8Ta)eNNYm~xv9y@
Z-/qXn>d+fhHJr6nX@HY?.[*)a80xYx13J$Z#+)d)yx?$wh.^JnG'3H=qq-[s)'yk'uIFF~R0J8StW_&1g/[bi3<0iy8=np88%XU
pw_;UJT^)-~eEF!RBxRBqd#Y9v8n<#=HTYNl-7~Q#m5=~MJN~(l71<hb3pdoxeae:D_i!B!Q7kjw%2!*+:d>[~EGGxqC/7n?(%O=
`TkTc3d@%^|oVk?<fDb!!w5.vJ>'.]eyaEMnS:fX'a_>[<]QariJUBEGVuc2Wq-D,>lB+N2%nAk=_S$yGtX$a?id=pxdr?Tx-*[t
JJ_ZL9:Z$HU,*%&]ue/PsvJn0I^+d.y#Y2Z%heJlQ(S!5:/5XQYkmS=)F+.?Lh@@>s'K5$0u7=&#[Gg$p@YpVaT`nzb49i@d1&K#
,Hrhhk`u0!OE.0s:'J:+eyfJ_<DLao9-fP6:pG&YZyE=fSQHviF_)X409`Z!#uOVrwCmP&t2H=n|in.kbF!yTZ3!MXG(EHb_9lMj
KU$pL*WmpL,FTD%9*T9=B((YBN'k.[tl%vzb#+G%.N2hDN:^-[t*Sk>ua.!4%NM+?1HZJ#.0zt_t~djU0rmbf2;:m>u(XD~HrJY?
`RhDj+a>&tb66(1Jbp]Y<6~k0kP.Kc?o9D|0f%hA^7vCYu7Pjk4,f,U>l'@k)xpn>1fk=LkhROtpLgSfA|X?CoQb+|*uEx+c'S]A
oRcaS'=(P;DwQFqwSr?`*u!H@DtPrjXY_xQyx:'VhAkDY#46mU!Aq!dj`'8^y?+OaiIJ,g7%eTi~8Xw4e)saNcqZ(.@aAnTJaz=^
HqV0d3K9#6<)2/VPN5$u[GywUTL92.)B|az`<cfRkWM(ReD3!aW'ji#Mw6)=z#;[W`6(4KYn&Jas31e&]>Z,a|9@Q-YT@T/rRqQX
T(6ThvR:@iP>Y16X3t(Nq%l|_::BDIj_avA2O_mDIn&EY?YSX4:PTjcB%XLEUYgQnga_tX5eYDlXqXHaivqxG*e8D;)P;7-P+Sm<
XZ#tY<P2T[+?YB4bd>Gt^66uh)+z_YMfT<6j,n2ui~jhzKJ05)FP2w/EuguegUe7_Z!&u2#joU^>Suu[@maF^~:;5tQuv:g_J$Qk
31SMWu9_N41m_[#l,nuAw0J&6r7$|0FM&wW2O_Yy=2I7^)px+~8LhF6=2:6Obg)6](+#MoJu8I`AG:oedkK^wd1q3uA-6P%s@ft$
t?CyWIMUGu.EpU'zMNkXrQynI4d[^V$|pB$PPw(b7nT]ZAxI|_cX,F~Sp,2PU|*Lz_H,e.i0?b7^a(p/.2](@L3>:<:9MhWlM/MY
+QZgErxuoFpfg+|?>e,`$iJ6XD36D^.VNN/wAPr_Mwgbt'F?10t'sypU,a;F9.o[=o`1AMe?_0T<r*gd]KS#l(XqP@$#dng9_Hy.
O1C]81-M^|,|i2V.ElBp>RIif1i$S`tIa0*QRFW9<75_td8]U58>[E6h,Ix8h'Zrp>*kPUUAJJ)Y&wu?tTRs/8[.D,*ey7/i!+t.
*b.t[76kAG*;x9`KoquKE<Y1tlJZ?IB]1[,8f'StRWv`lxPk]8mCeZr<|nA)IGWIbnHfct#;el,j;1g_Q7pt.J0]MzJ8w9:Nm:9[
w%HsY&R5xFo%&o/U$7#|V7z,:us$$;_7@/yeEp8%_U7-uC*-_0j|bSHdAgy!52`#=7|s*z@QA3/@@|yXAx!itW_Ls9Ke2TOKXD3m
i&i:bu4+)<J7^&s?ULTFtD+5r*(G[kp+LnzBQ<x'SlL,?>8`UMyEBRKG4+4E)dpbh|H.Z$)Nr>iks@1^M0@^N(Ps-!rW@X=5TFjq
UAG3ut4Km0w<s%^4=|GdB4:BKA2^t4FKxBpkmPmL?.MgCYPYLk;FMB`+Jt*%,+~J%oLYO*fABH*aw*&k8faA=#^iXAXYSkrO;p,T
I@&:EEM&9lk@.sdiofaw7l@cd?b/QJ~Euy+muKnfD@Y2T/j]v>0RbxXV,=`+?.k`IDz`lJcj~1L)$>DjBmmd(9b*HM.q0wqX2Gl'
.CZ@v,1mNA'IbL(gov%z@l_eHSm>&Q~wy5Hm5j3xp3dB6;Bb:5o~bhZd/]j7'`5u)Y?(wI<pz3yB8]9)y`8(hVgw4Cg&!;'g]ohH
(TR%E|Q6Al5pw0bn:DcchxgBBMb|vZR!T)g||h'T_~WRP[r'8P5C1A>pQBq*0eN0V(daHzD'1zZImM2^3)Z/wNRVZKhp=,,y1M:P
r8uY7ap(eh,aMN#cyL3G-)YgT]qkdh#TcK]/,f|'tW4W.y5;=xnXvjHl9VK;-zMW/kO!jwi~ZZ_/fXZy0]^cX'DeqSD`0&O)]|wB
~I:2*PnD>@::8??(%Q=hNw@37lBU=E!Vp]@|F0%S6Pt%-erA|m<QB.hp`v=LkVg~C6]:@biS-C^ju2bS4pE@5j%j_8hwY5<?b,(_
huJ1%r/&z~RT3Aj5gx=qyA5YFvl9)jjw;:;^QPN<]IoM6L`:K_&L?+'5?];12|0n9w;>eq%$0yxVdl`qi+Q&39WjBK3tBoSPO`WW
`^lZz(^#pDDGpNEI=uWS6XDJ?Q/iehviO;3:VUezqCIEa,X#NexTNxT*0cLN=Uto|YHYOQ`oZ[-h#hNuq[my+8@076IY4q)5E<'b
0I'=.0YCc)b?~Gz7U_GcO/,XO6skC6u(Elv;L`/'5MA+H7SYXA;su$_Yr`0muse:vOo:`d+QguuL`~J<.BZ/56H3Lrq!28shJ%#^
>@Y2dqq!$I!<'v6z]PGD3=IlzXW<U<ckv6Y9~y)[y%w?1D|Ni%@oVwjU5'-d;e7YU4O/BtnSwmlSE$[=gL,&f:R]G`h!^1UK!L$4
M)0UUa!nUvO6PovE|lkzq|`,uf-LGH7NHJan-h_pat[,ta4Qk%?Veu?K&Yj@TPygIG>>|6fx]S$+,Q&Z):Tr.oz$'[D*NN/w(VNu
4YW|Y'-=BA|;e;~aXLC?(:1!g1Sj|ozoqx~]t2#Z!z~m<vv!K;%ai]l/sJf)?OxBvp5[R-;H~D2bE^?)k|[]55M3kB4`V#2A#=73
N,0MMqeT027daR;?U]U3P.Lx$~o8j[EAnszmbl&CtIBx,z`+W<c`-uU1o`p<i/-/samkcXY|SM+s;1RQQ6-1sykm%0W5w665Kuos
w:L'-BXHs&VdMDxvt%W,kD$p>ZoMSou>b[F'yod*t:@7(@<X[X|@QL2N+9BB<,Mr6/i-KKCo/y6F@RjDE^n<mT-%0F85y5b4qu5h
_zjv6:x-!bTlLKhAt,ad#-)(My?^L%/]SgGwg^r+4WQ3VqpwTP7J2b0X0iv;Sat~XM4s>RaCk3<7lD).kmbdBal6X&zp^N@VumC|
Kt~k,U&Y5oTrJg4&z*)y,O:N%@?aWk,2|W~Zc&Rt^t*d;:N(h'#`mEki)ZhXE!=CKrSQr#9SxHq*f][mptT=/[x(vJ`0=x&*~D#F
Q<%p~L0d<>Q<OB'[[AuTM1DTxI&>KHjesCrR'At8se&hnq%2~:33V:y^W%ZRGH[6rJ2?SJ%Kls9Q:6H%0sU%[Sq_>T6zq-?rSC|]
%|*oV0bhB()`qa5GB|J8X):i#S<^.~4=k;'S=]r3RjC#4^y6J!n6<LOs2)OymixBJ!:JA&lPFh5<CU%CmuX,V/pT#gRR$,#Q@SHA
jZgquQRrorqUoG4Iul-rd#R.&&9^<0h'p`9]O='[x@5[[5~Ql68`SK9Dds'ISWg`-KtYyKsb*esU$((~-]dfRvg+OJ$7)H9OqXYu
5p@Qj?<@;BqeG/,^:dAP[]Rqb=R1(Jp_nfT*J_31?iMzQIeG6qMtJxKBNMK=&M^Pu8T:;Ur^+S8zOZ$PaZF!x323!oBM~>46mB+C
A0-cbP.;O1Jh7f2W=4<fr/kKET|!Q0|.Yp^CiKxlZL@ndzRVde:y)#sfzX8@O]xHw9US|Rz|An%>npg;$kBZ?'YhN6Ds7r~][q)S
?Va(6`yYtY^M?lR5BpOG,qh:Dg/wH3HQFKC1^QVaU%`XqcL=t1QE:;y1yB8C4Ac<ZDU7Y6xx>jM7XTBaVjuq#TE(@m5P6a',a:~G
?rNLb52p$7SOOAwfe^b<FYJfVS=$B5Bq@ihBG0!bk$Yd~~?U6o1.*DPT&wtA:V67y~0M7<lyVJ7Js4RnwTY6cahyP[w[N9A.1J]=
;C]9wta[jF4raq%e;pWl/*~:~A5<CQ8b2[3P68o74g9,YATFx9:$c>yQ/1udU+nd<g`!]+]^r*A2og11vL@UM)Co5<j5uJ'q,YK!
eM3uTSxX(|2Z4UXI5^K].*?CL*9t6>|i5x!XAvhA9vH/QvJ[z'~b7,ULapv0qCx=%eg&0G]z$PeDhmKUK*@F.R=EYl[:!`z.pd~4
MvXY*;97sQyA8;.&GP)]G;gZpsH;iPw<LF8d7V#xXSh/zI|2kp9mim`df9(Z7-.P)-=~v`jI!T.@uS%>b_um9e>sB,<#bV|w#r4D
of;|_aOqzhWKx9arwOu*@]p&l:t*l<bFFfTggukR$Kk'cHwN4V?>U7`nxsAE)Vzt$|l|oRe@Eh(OhBj)7vW<8fnXv?a'oh29wrCB
K,Pm./*Wj?1$_M7;P1hQyu[*aaG8b-|N[MczsEF^u'qBam6tmMvZyI(]zX82&XK$x?|2a_7eq=;Hz*q&?RD%524HQ-=e_BKRIuSQ
7.ys?DN!J)uAdpwxFt#eyT;*B=$QN:9093AhfDj;C*friwKSaku#8hO$O>Gg<;5f'33FA(%5U]!he.dkS.-ln)(YKE^^T#Al!L/7
WmMeEo;GL!@*|gksom.S7CQAIA50UwX^vzR(I8,G:()?)1ITW^on'?!3Q*FIy7MwX.j%)S04ac=<D!4BealVZU|a0,nc+zk*fJpt
mM&+Tt`;S2Ez_|>H|]9$jSUiK(P4r6f)#pq/'oHUaHY/bSw]*=^TP8hBgI8m2PB$;5a_3IL_aK?3Fu#~f<yS$HxPFU)YG(IFcof_
)v!yR[?V|/A/ueu7VW40=OU^u4o1ror2=_=tmaPKH`icU:%r|Ve</U~Yc$A@,yz5(^:N,3aL/HpPxgS>LL-ZW'p)]Id6VMMubwRm
Na/~^A9v'KEms`ibq9<]pkeu+`,<!s#QQ-'h'm-oc4>OLo;m^BsN5#I>UP%J<-PMwrA-K;fF0Ou^4rBj&Ju@4?sW5MXmN0&Z5y)3
|eUAlWnW0n5sR-Sp~RtY%0U5,E=w;+R'7Um8q,85Y-^0-[H;W-2+_eFifOJHT(hon@c=zS@;gokDS(Z<;w,R,E0;~/2A?$>QDGOl
AKg;<)cMJsM`j<^;9me&|~fZ4wt<p]2MQgM!7+aV`(H[ja`Vi5Lx]<|:YNDoegmy|F695|ms*8it#m.[+sx9qL=TQUgur1^c1|[<
y^(TX2EKSTl9Dl!y~j:Y3hM<&1Mr81exq/^MQAEMi'Owqr8=',QKJ*oooG8T(O7+lkdbz<|(;hR|eny8~YU~$c+F(,siEXrb=/wQ
yNMWaPav.9;DeNJZ8N6!`?(_rV?*j06?Y'H+rRP|T]X.mBd/AgyugvG3#=5Rpr?4=:q6Tg7Rg>ro]hFG`k6]Vv)(1?yY|oC`5)Rj
9xI]RQrAf(jqc23)6uu)t'M|pg?v3)*v$EW]j8G-udf<pO)5xc!^gy28X.vV<YO:zHsq|>~ADJ$>F0hvN9,kq]w02OnOlIFnx%o~
aW9+t(ZAaKp%c'>*SiKZ9s?q'StaX:L3'TRPX#C<=0/q~BIF,j=i-C4n+)@l8,&Tn*P^N^;V!C-q:;kT2pWr6/Yz@HvCX+rU6RRC
s?6xs~$uN^PlE[Zf,Sf-9>e*A.SyHD,zh_Mr>3ZajsR7QHK=s)MI0`H9Ye-nDuB'MKCjk='Nxu+Nl4)/I6xJzzMBW@,Uk6SFGtF6
881M/@66ea:19^L=`xm<5QoMYa4;FdF^^^&GDE1NJtU)C&qjSxx,xbF?d|A~fgq?Al$7g6:PsdmONZZL?6,oC7Sr+x/VCX^^ww`v
3>b6DR4).+`hhF+Ts+FBdOx!mHG#6$DW?e*H$4/X6@J'cE~6gvTfz`d,#K%9MdLedC3^=KVJPQst;`iwcjHu?_a'<^1A~sTHNU^X
5X8/GR7/$Sg]q-q;Qa<IR]?%yV2Y-MH*)5oiY+gR8pCwHw]<MWQiE>*Q;l|f|vJ^&q2LYKH/mELJTkc7@lC-3xO#P)bz`>sC`mI@
9+S#dNiO4q'[U&%^%(6$Vcd((DGw-,vD*ZlcL-tP1LAC~(hf7&t&iN9X+wYV#Hx<J><>!lv@?B[Z'!0TC;t^>ph5of-I'Vj2If'G
gZDe~pk`ORJG;X7`N^qj_jDjQce[?`>|C07e*e0eiomd65t?m*Bmlw0H3az5bgPMbG*kp[-_9EhnlNQb[Z`*PJv+9!O!iyP8Q5f2
3Cc?eF2cZ>;V,=G]y&Oz0_u[E[WB[6(pGO$Y7~kk*]o9y`V-vh5E'kp:G>A<XYZVSY|l~H~v[rOV9+s88c:XMF/KCD9^jOM77rUQ
;/Y'%O@#FUqIB^Sgp@2`ln9lZ^.L8k^OQS:30mXm_8t@muT[,BDIfw#kG]|ldR5@pB(e&gU~8GBF0Qgxq]aQmwyE@yZmyzf,>z2&
'2Nn&;m^aan^mG,9Y1X7x7TZY>Vmahss?i=wOrc[j3_v9+T#qSGL4;&Z?z:M29^^C,WK&(03P9$CnQ>'TRS/7oG+Nnm/;cQ/Ki~O
=S?y,aTCq0.k'TJtUW<D]hB@=8iO>7K^ak7J#7i#)uwr_?Ei_gjH$^tejY'jo^1r)'dG.sPI@!)8ec>Dhc4W2@ZnGB(`Uk;Hg&-x
Wmu^|XK]vn_eu;ht8HtSRIK)['sefUX2Uren5[orW<LJ1K3|v^O8%)em`X%8gyCOS>tEX?O+Q>2S#x&LR`HC|+iZA'C>vOeJ=<#(
_bh5m2gb.9<89i~<=Nf$!$/K4:h0z+<pAT1-hT7UTEQs[9,;K?lUI&:Rq*mKa3E0-J^]a[UDPpYY=~%W5+^8x(Ssgm|1tZ%4>_2;
OXS`BaX$a[N/(e>,iXN&I7')6ZC;WZH]0Y1(q1oFaqG1!)mO;ht<SB86TPpouq<z[y_A`k'c,O`W79%Z(D)jlm7Ke>kab#aaPyj-
-P+3k0_Hx$tV)sb*JlgU9RcW-]KYKjMq89/CDg*[(xzBh?_mc'[C[S7CE-cq+I7KM%,RZ&p)Za|wL=gUs0e,Rq].dgjT>Zv7k/#?
*fgSb@'X!&1YMJmBI|K5YsI>`n5jI;Drmn3#_to$;aI%@_Qje(MmqIh:6uY1UbWc<*J`b!QOcy3aru[I3wM-&'V|2$[Az?BcE33J
Z;dpFgy,+(G0oOMAzA>F$)2O%W`(biW~|elL%%QVzLQCp~9bIxez>gZ`ra3+zI7P#]'RaiLmu3>=A4FwhkcuySU*]!yt/1c0qk]9
RYn|0E5^c]o0rC,teav'joBM/o%/>.Z0uc%pp`OiaXTra)uID5'/PxW@uo](<?8>3Ak=.ptUNa$hhAnF'0wbqr=n-P[ZRW4#LPBh
8Y^q:=[d=?K<Q?v41-tQ|rsyeE)Wgji.^3WaZ#ioOJr0)GlS*Ko0jo6%>)Y_@ruF|)#C$1:SFH#hx$~IG&YmB$P#uL?gFEmirrql
<Gq|P&tIyf##jc(l|W]tv5SV#l4|om*dFKYbbSgvO%V>lC2Q@nQNw<Eht7!X.5iZ1W49V:8[iFv5,EW$7F590m[_KgLw]kwQp/GU
?B:-[yJ75!EX>Gas42)C;;h=BaHTWnD:bK>jR~Gr$;2Kbpml3&xh*xhwh1wz%/zBX=V%0,|E8!UbkVrFtn-s5&|Idv2W>F[/~zS+
%FrmTRa:09yZ!NCG.FQ`/~@z/wqJT)t.G/#|N_psL>OLk-.cOG#y?QN%YCT9tidWCW^QX)Jj1k?%k2vJtzx!#E3[X8%eE()$;>m`
oQ($8+LE@5?yCz+D52v/=6m=*r*ZYN7QQpW#XE3HQP$%n|3=.(.+@V7Pa]I:G-BJw>BGQGk:ximG)t=c'`LSoBaG+-q;Q>NJKk[c
o&&!m8sp+$o<QR0AUP=nzQ5jBybb1D_j=1968UIqTjuNo.dh1#veO6l^:>e:<2lf,k~'RF_V`8P3tHD9t%Bkrvcm16*FL.uv^q0K
]?9V|gbr4*!CNOMLy)y=>jc]R*knhzPnt|T)*K|Wdj-*yxf-W4>+<%y2$?jQhBb<0/aw?z:c@q53VI(gw&:g&PAaR7Nj3wJ$+T8h
VN*F1`<l6sQurx@0'WhRw'^D9;6x=Y3VP$ccXShoZ:R<ZOAU-9/h,YSJbPyPLN+ZdW[?wEV6Kv/A.2SekebZSX+u]`5xh&]&5cY`
G___i|i25)~p%|Kqr?v'>_CuFq;LC,Ij2W_n_`-yXvtnpKa+G8*Nj>.v4D2)t#-TLB!WBKl>va'$TRANIZ+;]IQfp9JAmB?SsOB$
`?@=9X/S|@RC_;z[gb'ElC:d[RK|N1d|Y=e@P1V]Fj<;XtPBBvgBop]QDU%j%#kW]L5ktWliG-('1B+ye+n+?'|'jm,K7]J:]ynU
k&LnS)Q/G,*<~ENpUi=axt$rl8;4MF2rno/a^11n/-`1z*yN+zM6nxP(X%uahA+wcW=zvekI%Y<C2Ee/XIzUMv^RqKO&~q(N2zw|
>]XhFC'Qp9'`FpH`Lb*`8X`y1_v>9UqHVQ5&,3'^s+Wq)ynhZ7a(d|GX%u'us0FycCEye*1%*JTr%fpFw?`,oNibXm6%H[z*nRum
[VoRX8OH;@ECq>=cPSTz%=oLBHGy%MjA(;`c`'<n$^J@c6A]OX6n<5sGzI:yNRk6W4Ws(&J<Q!-d&SnWHg%ylN)#.b1ld_]F:-eJ
nPN;TD(y-Yd;>x&Rm;4l|D=PTbAAyyzr%xlb3Ou_tez$~rW<u01?j@s+oZKR-Vd1yfS!b$6Q0jC;(7%!(-&iyFsK,[epdSL_'4(4
5'y,1Um-S7179^66x+kh&^^JIuo^-L<rh!1c/KzPaS3g5To=9527ezT>QV,IChSG-jEw>dSV~~FW*HXQB]0A2P-JpZEH3r;8D_j[
>iN?1oVo$[o%0_pD|9lV30o;:J1`L0/);L<1Ao5/`@Ad/K`&'9J78L3NW!hFy9Wb7ZtCO1x]#>x#31'MdmF8meL9?x/w]K6b@$BC
!*nKjZ**n>c<UyHQMqREO9M(0.[R|dzx~Km)QwCqs;-GCqvFvoS1eo#Ojq%~fj^@BCtE_bdG;]2C9`*rzgbJ2$^NGy7wA!HUQ4'c
h%Jd4zI5b=dnM/f*YUr!fJ(3~&.E>v[IGMb@>2LZFS<DR%?$eeuSa<lkT'7Vk;!w/dFchW1zAR3ocrlNYlJiBRj``3|Zw`o0$OL(
e9*+~Z=Q(|5`4?2z2#D[6~fY%=gebuC&r/d5O$XjrccSv#nvq%T<i-gBCM:bqX_HgAIcw!Ehyf:pn,1Fca.(xRllbj5`@uJiY1Bw
Q:f&EAk&N35=R8@1o??c%;:Zbu%>.9ch3$l2|be)1ALKHA</R`FQ/RWwriZ1nWok|nq%Z?wQu2V2bMp/|JI/:Dd<r`D^RsS31FhO
;^:H&y|>k)J3|HJ+grb!rgWeEA;=/1mwF>O8bwM!UXmIvBleYl%liz`[G$V<?;T%C(>|0QDF6MzNe1*0qW)e.I<mo#5fS$RBuo!z
T@y?4E!7.)Q)*QQ|'Ur~<jE$[)IK]se&9&!?u979?wx`E6nA00EEj[~pWw&RH3jFgPv,Rxr$##|!DUhY.D.(phy<xNa%Od8m7km&
wnO[e[1lw5Bc;8IJuzQfE.CUtbJ7bKQ`7Umu*b0B^C+p05Waw:]-~BZmQ6nSpZqlr!A@/h-,j^FQoz37Gt@$se<mQ$0h4'77W8EB
!_V;u_T'g`F,$XIF[!sl;:ZISNJuCS!Mby,f,.P*40VNM0`g|_y,z,(_lY7&9b1IGY|jSk0:gz:l2Yx+El=:eG:^+sog#JJ:D(*#
n/kQmd$8osbT!y!;L.c(9noEXeJDPVd|j(70h]A|20~y#4aNN)k*$+MZ0;+eHZZ67'%A<Q|2rseH-5Q^1/'|t>5p%T_?Rqk%uU*8
#(Caf%lpDbDIl3J>72d=3RM2IAU1jV#?zEO]$Sp<iT^apy.U**>DPhG|aS5=kn=AtZ7ex~9Z$lJ(^>l(7:'SZ%|YD4H(G`ChLZok
mJ^*vq]@98|Zb>pUS4=0jJeD%XQX8,Bh>26Bhcmwns2THrK-U!~LJs2F:vc3jdu%^&hPFj#m'`%850F,c:,8*~5Qf(R$/&@4Odcd
0-r,76J#+/d<acd%Vq-UTQdI7RAtqhv_j5_r<JR`W.sX.Y|P-la%qX3cC)Mb-(xb#NG|ZLJ3hOEAkO(Wn[hiW+!^ZGnhDD-U8GgY
j=S;6RD4|IsQZT*.?!FbsURLBi<Xfqw[aS~q[gKQ/O1tH_dbRduNCv|:s/B80Cs5KcQy_'%_P/t[_IiT!bAAj./j<v!`Fh'nZy%!
jm&W6BHrlZ0MW(x|b.T.V9EE#?FH@pNBa5Rz#::np?~G/0K^[Q,/y|g`_QytHJ/0-[*]X.v!|+P5NYu!,r26Qh_wp#aZ9sUg1`6C
F562Xcz)CY)=!$-s#9<yt+J/I9|PU^[U#2s:DH&LcC`u2WgeWx2_uSt<H#f!<1)I--;zR<1VsjCTZT!,wp-Jp&@].;O5^/!ZL6d/
Ab+ZXDXyDYSygJvL'u~u-<*)I;N/.+rpX>z:?OD2TwnPc6W(#pha`5y8dXAzad4J-&A4mv*y%Zg$dwlI(N%NH0Gxr!H)&)QTzi00
`v(n,@O6dq]EX|T8TLiYl|C,5M)pR<;9~aU8px`l~!YQbfuJ.=i95)~4%>+1lAER[-mV$:AX0<WWL(6J8@Fo0&eD!)xwR4+m:.[=
t,S5JSZ8[w:g~5iI|0.*fo%'rTkE35Zm^?C(aLimhtv~Hu76-peldl:OY!NXF^<(jzkNZxBlGJHLpHEsxC+l@azYHx~C3F8paY?X
T0y|?1W2,@_@5qkj(CD_g)TYo/ez8eblt2z>i'EMKC^:sC4..xlcTQV|R*$'0w.;DrVAq?dVQ|z(*A_q7Xt`.0S;izuJ<!~;;X%n
>/R*d[alX2[ww6U46$@N7,HfWu?z1.4,]YlJkAiGEr75BO+@LLLmxfs+Ec4h/>;>JfmuUM!Su.(:*-<*)ICxmgz7'A$f.0~?:X>7
k/44LcDOMIM(.34>(!iZ4K)#j7p%5`EOD-I/ZR==#U'b,Y`=jsG1&]Pth.BdnPSB.Ai;qVQdWs|#G1:kWBwF?R#Obo7vt=^c@=3e
OG-&f6e.==_=%?R^R>+$mMRRY%iJ0Hat&LkSfst#j42*m3xYv|Dh3zc;Dl&<227,J:sN6E`',`Mmu*2Y(VIVdx#I#@Q8/;wJQk|=
'<7~<dWXlPr^Xr%=*dOH'$dQqDXycVDx=m|4bwd9v#3JLy)LkfH0Hj'GX%dm6DOaawjvR=g8C|KY?z8tb92p&'eZuptmx*njH3;G
(Pv+%Po7%6[+!UK:_^W*Df(;Az&[L30I1J4>h2oJ$<E?q(=clH!$q)m=P1LO2gRn5~wI,,||v02^q(L;iTFh+vAXnkzGu7.~z*Xs
k(/+'8!B(KkV*<^RFu?+&sGPQG@Tq<<lbV>~4rY5q5_L!Go;=%RimJPSbPZ_7^w]*5ri](-6)gLS+L@SktwG0umu,*CI~oaMty$I
SD:P@LSBA,=&smR/&>GS+kixALt~./V>q2ii#`%I[V5EzN%iW*5fX,x7Q>nnVHthj^uona!mrpWrZ5W|d6B&B(~pC+S1bTraZ_O)
XgiR~D(fhXiA=ay=y@<fc5s'^^.CF_W`U~C;+yirl:6W:kF^1-,(HGL#x|__/(|@l>+%14L.!@aq/fk'>2va<Rg2+k?kgUMqu2)[
U[!dcGt=eH,B;+Zi?,5VJl`Wg.O-Ol7%B+MJ>33WA@03>buyCmO4x2HH&YH,7ji5mr#B3izN3[Co$XGs(/h$GV[Aw*`Aq_&UQ#iN
m8gJQaG|$hgnF1`TZuU%jQ=@+-Dr,R;y|y$MZiQQOxL:i79(J)7DaVgdY0WC9Hd3$&Bv>Ed&m+7OS.Wdu2lB9Z+J.#@*L&.S+,Ol
M,n7d9=(GO0&PjaX<>!>&#~*%c?C@Zhl43t=CK19mWL?X~~B!#3cTUVEx^!ox<$JcJB#U^:?^l<J]y?Nz/1Ay9#s:wJNg`|0C5CN
H-@>44IxZje<:@FYlO)<j%j|3C3I!8g/vJu'*M83!u@iU8PX?^,q>A,|?RcDgBm(:LN+;O!PstT?E(i/*!eyp?s!x7+^S#beuAvQ
Iw'cwdMa9t>%y7tGz&D.ixn#wlMzGkB/SZeRF?jONZMRtH0+of-zWru#kdG~qH#0EQZYwz(I#zcRQ|jQj53]kuq9#xZ8xkdCn8Y@
#G5]Q_=mNh'N;<yn/~kB+S=h/C9-p,f.VY9h?~KrvB>bir?XquO=Exc[&1_;#3F3|*q#wmN/yuFfxgg,.6MdY66vTQ^`jB.D`#MQ
3iB`:^&J29`C?>qH]UGpObtml1bZExmN^&tfkeN!ry+rgOFT[NaI6.wf241%sa9s+~_1M|ni&j'DhH-O?$D~0t&9W^0W8R1~nUCo
sGM*X2gdGjm?Z>M)27GoK#AW@2dS7pp>^Qv':6fCf7'->m3bdZ>u8i2e=qA1`+CpnNVvWReIq;Ua,*,Go[C+0,n:ot~hDLrnrQ8%
Vj:s</JO:XZBvG5^q|[_Yt1Gab,e,Mm5YpHgc)`5`Z8rDYZzi^c8B&sDNr7hH&KAMPZ/XDgIN+0b%Emi1Y#]3U/ltePHGsZ$$3+#
H4!H#+xy9Vm%~=EX!~Y;Vx=1e]E9v@IiWg#_@jaTk^_50.n6)gGl8KLlBI'|SK(F_#Oke)W3tJ=woOXqZOPOsQuHtP.5/kGamS?.
YY%,p4]);:*Y@n@GDpR%x$~U@(Tr]XCO#YDfWR.lMnwa~Dl_).`?0mytwW_O&RyLD?;hUrVs!*q+v~V=sFZ1gts7K8gqL]wPAFZ-
Po6*tW@%$&NX~(IKU8IJjI4fo/<Fk>?)ROAtP)pA3xHt<dbp!~W97snOzX<po*|gQ`CNdcrNFuIa~x(9>rD_Z(py?S5|1=O<BYC9
5ezF;L?>P#F|Tf7^2q8q/`^ZuIW/$Ob?*w=a0|su.QAs|G=>Vm[5D(iZ6fSEtAGDrdMrr=Bx0F(c&qG_7mZCqz7lf]YZTIc+R5o?
YTX6M)]I9#w$I#1jI[x:EKI6~(9Q)AIsS)MXqhq0!IYxasGAmU%C7Gx)JYl/9Bj@%3:1K8KT-/<,5X_K!5npq3m`r3&t*%$k<|~T
FHO-7/Pd=mlVr!K%J)K^20JNKVkJrTgl3b-U6o~,iPg.Y$7)An,0l):n^vOFnChbd]GmMr.QUQWPkR!*@O16W#IDAb69*N9R&8hM
%pocU=~rn0,1a+rF55[oCU|^Y4^3E,~yg_xk9q5:C's*Pn3Iz;EZ6M)s,XFjCgwo6a74TR'tQJn4&H8QS+V?,hH2:&W+!mTmiaK|
i^&/A,p@lUb7>hM#*K3T+Ap''Zv?)|(,ye_Gh!UZ!30T1ydq7Rdm6F&Fll&/V#ID8-8nx)_OyHYzKopx%T$e3/loiEO2dKh#deI`
'jrW1~6DV(sh)I2_r1dc$O:6[XZ8LrxtUX_<!x^z8I@C,/;E_p$DpsRM%gpk4d6kWUz/W?C(/>Ff/6Xw2)6<v[=JHoG5N`u/I+&W
i;~&l@&J<Br;?n~21Z!j7AtW/[IDth;b@~ZL_z^/y@@Rd:m#%k3oA!z92Rd]D:B~Ydw[07tV3AhJ4bGdVQ2hG>-OBCrAU>:j-Ui9
C~f;`vi_;2fO<I+!Z/N'aY$6sX=UfoITXTzKYYwOvC^h]@b_WMYOfhD/g/95#-_qp4.7YT,ABPu]ec(+<TX<dXVa8TW<?SK-*Q&|
:@)>^,%f`gPNFSJ&U@cdK3:0mz+UmsU-!A9/*t`O(8Jd623]nC=y(0G89LS_<07HdIeMl+w:lU]z5jB&@WFbBrK)Ln.U7Fk3*T3W
8i;8lX@BLqX6D'$m=/%CiYyAbB)ilk,,^Ti?fY1X;wu$]^q;i4wKi!Uz#Z]j&p?0LAv&DkK(S*_H'c)dN=G[YtI:_'A3E+_COi5s
AO'=)F)h^8Ba3bDYNuG/lga`1GYo)*7wzb~U?]#aLSN:>*.3I*@6cslH!<#2PA26F[|5Vi<-pxO1uv^y!q?Me!f]Iz@|5g>lnC%i
.IGa=h,Fg;6%L8n2|s<Zb>Ea,4d8z67Wp[p~XD0/,:farx'cT:*2tpAMjzze|!h%KN>4O-OX.47[lO@,&ldW_^>~oUnyDKXC)ui.
c0I^MS=JwP?5yKWden@W6/$?pWU3mrvc>6>Wf/pcf|o+UD0#a@aaUA+hg;%-Ef&#=R6[y_ab'S99<x>K.=7=V7=(<(j7Qk_iwAA%
]F'-c;*Dt~J5#agZ6mIKXA:wp`E'~+?11X~KHGBT.eXjUUmcWDancz.,xOX?/Zo)4>&o&xt/1GYv`tU~/P/6G'J05rt]21$tCi9<
/F$-S1GA=Z#Z&$`_51rNDRgU^mC<0qc)Sv@4AH*tpyU&GtTeTT|R+T/G#CyxBY0yk`TFEFO4]>hW~ut?EN%]cmvD8y.q.GDa$!9k
1j.vjw#UacDf#EXE!+BibcF;Yr5c7.T]h/eK|Qz(Xln!2|5s?>yLD*h?/C/`(?#PicQN7dl!.loSHM16:X#>CGJQQKA?#9@vev6N
mt+NA+Q-@BvEHgJ_8/]~r~]3N`5w(HJ6tK-p<Jp*g:u76ouTd.)ko$-^yYr>?wF`aLo`'8nYah('[NEymp+;o^BkKp~4HJ$/qn/k
lE`Vu`+nY8nz3zleADGN*bL8|6i!D'$Jsdv)3Vrg%X1+yxGrPUq09mkD?i:T&PXC7?/7__)HGo~Sf?OJ=9kyF(|e'^vx2U]q>cR0
iGk7oy-62XkAP?di]q#0mK2]57]]C7B3ghJ/a[c2mG!)Q(A+:;z<lw.^?,=OQM|h4)`ok?uOQD?q5)%UbN)Md!Q<Ei@QMiKs^P:r
n!h*7w_lFHX,sHF-;t)X!fMQBe*ksu9`&;4@qo&FiCvlm?5/BroV-#JdR~|,RKREw:CZ^-~C~&@(@Vc+z=4Fg@BX_G8Mlc1uKtz~
1T2bFH!IOp31'c[=vTqLSpZ64.!N/mWWw+N%sdzLJV0bH+bIc7b.B64'GiGkYo+qHlUHr>,EdEhYTjT7tYRB*PtwHj>UPr?I)'aP
P33GlB__=%nU|O[=)BCY%X=B/':+7M7w.,Ink$HXThA6NwvaOu,]61'x7Kkoa_KSz*96+-r%wzbVib;Vgy[M&FI7#)geGhv/g35L
95Xn%4nGFnd.ACCqz+U*|<IZy]5#D(B+;I-G3*X_]v35GNJeSiQ%~Vplm#B[CvY%P'xJlgLV|FxDH.2|JIbm1*x4`n=Bm:EwWefI
9gsuKvhQ4lj_XO@p4uMcN1qc|T6@E,*Et)qAVs6lFcqUXMEB6w&GBbX7c4M4LGYGg6!jliI]H5AW7ZW=.M?*A[JHf-q#:xj84Js%
B<S.(/D!V+HO4L1I>or7&o&2lRtgt?~)bi=s``u8s%%p~xGwR93=!8;sJ'^-|^KU=iKz|]USc#D12TS|0mcbraQ'=8z`Zwg=]~XS
Au3uC(O/z6v'247DZ2/T?iEx<Y3C>uFz(Q*X[sy0dLM;^8.H07w=4B|C@i;&M&I'r6(^;V!jS<*Mo+Mf[qv@os*Cp>cTdOO:bD(a
<wwJ->:%(g^jzZ_#3`R+ZFu&%bFd`F/R#0DOVx^)W;4aPbAYdx=~e5eZZEgDl7JM`#Nj&$i>2PRe,rH[k]|IRN%vf('ei2ek;%'9
@mBny-BqpfED&saQsy'C&(jksJfz'/?&8kQd<j5d1`>EL|oI5N-BKwj>8d]Wx]+VqUE$+ssQ<[I|P,`eF,w9HY8@iDAv!JvDl?k&
08cg1[j*sS!MLvyBM+_thS/G|8M$45JZ@!L-,2m-FU)++v:rO50C8?xYf11<PG<s,r$C320e?oH'C..YIuslTre6N86q`<eo$IMK
r4S:7AZb>)[QbM8KZ7U6(0JuDJbm]j$@0d=/kG[.STIq<x:HYS,-Tt*lxSo`]Jvh$ef%Yk-Z:eesj3~jYdjipD5(yjfAW0(/e;`K
oDD/CBvxbB<y~8)?^.HpN$W|7TOyA>J0W`FH:myZ~mX9'o>-e$u9^2Db/Q3LH.6bj=xGX(Jo0H-H;z)'&(0O'3^4pq%c:.-J+g6v
jO<;|LnNOk'+td#:UoO0KRM~37n5,B]W8721,7/NhIxX3pZ<jp;U8wFwxGdk?7T)E9~D~fdt*n-5(Y0^3.0(2X0&g?`_G.Y2(?RE
6erA6zDTy5|Iv*OQ#^V`1fqh%kcTpa&K6wArAPA7.m0z@%CKC(Wp|Pa1,gNN:keJ>4n3Ep'*O&mv!Rb^Q1!N>QVt0/3O3Fh&H.Jk
sv?N-;xYN'L|)9E<#YOU^P2*W<c1<;WzS:@~E$1Ya[6ctW%wL?]20ie%v`sLJ:Ixu#?`KEuI-Ofk^E_waqBMOPV&CcwVAtKV3N,l
I-C-LwAf+s5Vh?`s>BkpAf|Litw;ad=L80D`nNzWsfC&d<R-tPYIQc&jg$!)4yHGS0)+|a6tRqHX>k4<@oF%`Fh`MKg5!mgLof`8
=jmg&]MG@+N^7]b7e'UPuH'`1IDP2<givz]J+`ZVYH/8VW5s%||5tMY_mB<1f;GRp*[jU0X|Mo@~LynjB_I/0B.Ggs7o6O765&R0
`B~3hf6gu7Hm7wyXOL*):4MAe=KP^KCY:)LXi:>-&7^3+tt&kTC$4I*|/P<,1:V4TEu4aj'c0dVl|W%:4cRH3+m-]yr1+e!<iRnx
p/>:_fiq)%3>_[8&V6T5JZG(dYM5LD&Y-s_>A~.qWt(.>TJ?EgI-,nOh*aWK[2KT$s<F;N%Y|%LN.qpb@v9<OEcTi,?Z*nmV*pcv
`|7T>DUid?]p;q$<RYzVFRZO@j7DRT8OmJDgx&u&K@:l$gyRJ%?:viA$(@RU__c7H|ojKiAz,I8n_h8@[(40.nnQiZwn:>RZJ+if
j)^59frpo3yf;@2c/Myij,>>Hdn>j~KKXOk(2veFHaz7y+)iY^LJPhi1a:)6gKOy%3$76em2:I#![V%;@Q^zjPmL_68ykDn@rCOq
0LxBy].WiB)@*dm%[sCwWO8jS:.1;*sq|toQB.2`*yJ3~7^nA@m)oG!-V#qt2w]d=Pwwo''gw@ZadRDz;1N8]Q,Y]TLh]SJX+77+
A4!VWERor7lrCOC_$B-i9ZW^FZbDErUtwS@u4ddT(3l`Yspp(%d0QI]u=6~r1k0lvI0sYRWF(:!h=D%U!FTbnf4bODgB]2q52S#'
*?x4L?*1dJL134U!#SE+xg@jI9!V7<b`K#uBjCNb7K%Clpz<B@JOj/dSwXpKW[|S>Z9f<'YVV:T<!|fXfEQ8@?t;.9yA|@;H;(Gq
a[Uei>2K+j1.Ms-<YHs`rWiLqHyJCaqCjr$/>KfuR!_Td/J0k!zc%x3f3S(%g!Nv]Cw:YuN79|rlv/H'p[#3YU*0D?WZ$CC@>OMM
Xpb>)I;T~Iqrx+1Fppy&dhYj[`@ppt>8gi4#6u[!^C=$Qo5x>Bm6ag-RJT70R=zK0P5fP0t|;[IY<.0EJ,!,pi8mC#2<4Xy2*i[(
g'qT#Y'XV^l15!Wat`oVW?fQo;_c;x<~u?W.#<?JyF$TbDc6!;EuHe?.5MYFM7Mr'6m+YxjNTmdU>Zg*UV_;LPL(dYJ'UseX_|zA
r)^pgB8ij^sO]*%Hg^]M4Xo`i])7Cou_)79!]T5FneChaup86VNp_ep@j+cHg|`@2w$Zl_Y%Z#6l]OxT7t/~RW&sJR>/6%Zd$S:k
%8GKAXi%b/v<'z9yLA#W+VyMnKOnZ*rM^ibe3s&=5]?#eUD[7Z89VYe5`.M7J8^NKzzYN5sS2wvog:Eci(rq*F/$xu`Ot[0DLJiL
jfq^-kUWkh)@zRlJ-oNa_xN=5kf+Zqppcsu'08N9/=to<5Bd$02:?K-3<)riRVp<mD_C&w2Q.S@H^KVKlb^RS'uj((,8_SjZ%]9=
2/ox'U~6gV>x34!7VATB;$y_]BM3h%JtYMMXKmdnw7E-FP<2t^N6mhc592|dmJ#n2zCJ$GB/T+r>Bb64:um`s<Fz]&<4*mn:ewS'
OqC9H,5J3BEePvW>R#&Lg,#)jLz.8&f5FKF!1@V33#3.50-AxQJ^O0*:6u56eH$?LyS9B`NPAU-KM@ZcC_d@hYZg_miTw?RNk5Ia
**H+|vi;>U;6>?|$2weo@OG>+9Lrw/g-'6@_p=V5Aefz>gx2Mt-);HaEltmQ>dFl/037(jqWx1_>[1&psawbp-dUo@CyL<NQR?fn
]8l+>w+`d89`n.@H`!(!=y~pJ2kw)U]S$o>OlT+;!$NZeUL&M)^Us/xWDB%+q%aah_9|@n?LvZCnP4%yZaVYyVVsB+k*38GK`sPg
|MquJcqp_j20P5N'@,V.1%z_@CTnrc^9J`i)rMqx-ANmV/rKO(zY)Kec(oG@@JN@0@p?rn@V43KjA92'f$odS=Tar/HkS+(B+GSI
7mChx/*g4`7tx77#1`ZwFe2<0EeS3.*A3_5m<a@]3T!Jr(Mv:|wjNF5s;=;A~:qkD&m%Fv^ktT~UwA-/]5AkS9<&1sg4I/[&'U+|
J8-Qb6.77Gs;PN1QkT(vl@TIybTG7|q<;i%nD$]/DoLM[u*bU@i'FA!!9/~Fl+8-6/`P<YP$=a,^!(UJ#?2asx9^nAim4$Xi.sZV
w9kI=xJVJGb7PgrEc-snXA|pA^N2C0S,#XA6xrq>O$6%@KFyo'U*@2Jqae2li2Nx5h$);QO$:mpFfzU@uMV#[W#p9pWY1T%3[6`T
-)|d5*,HZU~FLly3KtGO*P]<-YB=rCiz<4qkU37>eW:@H,Z?rbMlbaw2y2`w[Z5||c*x`:+2v6m,weS..P/8-)5b9qG'@rI5+ZA%
3uvP2aX;y/ay2X:d<`;Ylt:..8lBx/tR73@?8TOny]2)T'l5+]Dc,GO2>tLM:Q|gAJAru_;O.H^?k%urpS@qo!sG(ER?f;fl0lc+
)Z_^T_V>wuTQ&+rb#Ov&zWZl'ln?Y/#wFYn>an,M?>/uRPf5Sq9!@4jR@4P6aH<8&x_s'OE,#q&@+m|)^0hk(nM+-QUb3FK4]v;p
5@v4-F~2]XSPuN*PVU=0vW9Pm]z_,/'8~E=g,xbdP@w$K4X89f2Q&=t(;FM+$ZIMsFcWk(496![nG-m=%b:c8v7MK6GBu(-&4#Vh
`puLr[?yXVz`+EL*b,jc!IaPEYL;9[ocL*p=NgwD^G(@N&2Jr-.Zdvl'O?%TYynS7ql0T_z;3xO'#AD$4`r#25Yl&O+Sl*7iug7|
T-jMPh|>J0AePB8z>3lKRd`.Wf#1.4Vz4)oD1q*7TcGf5M*oQN5;n=R+`MuC<Fg<J8V3~B_+5wY[r0lX^~.T=jJ-#3=v5;xq?^$1
,Hm*!`D~.N'%c[KgMH*5i']v@xyTP6ht'+p&bHaN]gJqis%t_>tq3Y|/vTyDelG!f1icbV>xuFAi(h[_+ZLL|syLFk(A'I3G;mJt
!h;1RiJ27?iwBU$W:2V,Yv/MF#l4n!#7<+z6k(V*'Y@5#g/_uo)!u_G[-q-Yg-cVh3-4NmFbwh2r3KyDeo4)I7|%Jd@-S>Ec4Oe.
.j(d-y^oRWcISNyF_WQl'OG=RjLq+<D?,0wjuCZoGgYN:1.H$v?1s-Ej'$.@Yjd]u702bY;I0?Y4cuZ=|(.#>=X?FO^w[O~-hIBC
]-B&gv|_6x'%<&roc=Tjuj&wKC-7DfJ6i'uu:Td,ylOK*Z,T+H7X=5H:fc04.9tIIG+NY#W`ENSj<mJqUFOsL=U|_zZJ9.=~EP><
]BIlS8rIE$~M#stP?_S24`=IvCE8E(,-hn#n)D@b.PXyQVfJktC4U9NS7P!5]EBXaKX.HxGc'!rKp$voM%qrxp>uDgKr&WW9Rwwo
xzs~8rl:B@Y6!!=:MNj.c7k<p(-V'/i>OUUJMLynH$'qY4GMjCIU8);Hu<[d&ZaR|/NMsb<N^#)+!a*Llt(RS5!0%wZa@d.;zX3R
@/gU5@H$gKG5D++_Gb/8r~lKbb;rHBTxi97p/:|cV79<9Gs*Z;>89ZW3-9`Fh^!Fi*e3+;fjL[OM(gwwB1f|0I&AwCkXyc!=M|*V
C$_@$#z<Z()z;Hps.8Wi]Y|e@7YqQp$H3R/JVAZ]w^gt_a6yHoOB;*#QV%c6:[VAJoB|95A,#3_?<[9|1df`kDyr4SL;a_z6b<S*
0YNCAO-F0p;rhCMg>QXh-7y[lw`3ZyYieYZzr0at[jW6NHPyb^GT.!G4$s~sV,7t7N$1qLcI(2cMZdN;B;l_LQo$o)l<FQXuC/3l
r53G&@$afI8#J;p0$@<1aA9=wB11X:@RI),<RuFPw!+Dt-QR9CBH2S+a~ZydstEa3T&gO9X]yU-QFgI.gLzv,4eA%_>_iZL#zH4u
+qq`*J_>eoSQ?!K>e]I9:5,RBY.OI%J:->|4[+5'`|7?71yl*E<Z[Q,f#.%~/yXAJOvS*s+sUEqc)2<8CqCZXI&-8IUXKA'$Z+#/
.7ypt0$Vk.DLxt.H(.K?*~FR2AX32_sGoG_GR'68uvV~Q(_)2~*_=+&E*n:!hWw:O'#73;R&qvSO+`F6U~~r(LBc*~|8Ch)$2>|J
RsSj$x|`5Ay'jBh`v:&2sehcg?)]K/%3LINDW<&Oy-c;e<_EFRUgMejiqAGId[^Z&#i1^[YsV93]vjV*c|5?#Q*W|[kZ>^/MMv>2
T'nFX7%Es&.hR.y^AmK[>mTJLuC-iqmVuJ08@'%vu&ij#Ay`7s`]YDn_Go|VS%lQ)y#+_TJP~*=Ff:k|<ZREE$.Qq?:X?sl5XIcF
h/FJ3(:7~|kJu~/tCA|8*wE<:kcZHh^9.Pt(6v'tMJbEuNAr@%c8(-CXCq&Lj%P`#R?'t[m!xO<kS:EQEh1Dv3<P[/e~=>SG$K*L
Gnjh'5k~ozcnCF=NU_HYxX[@KPaE&.Lbu`|P#!ktV5OGVU%r;wFy1t$O-|q>t/G#-zSos6A#`HwH'YQr80E%d`CTBqD5obn4@Ve_
Ko#/-qL.R!jtlYA)NQ?9/)-tfjLO]3iT#Ji]npgHtq<v?<XL$.)BYfK4SR_eed2%pa<mz1OX9&[!2BxzoNE)=/j&(9Fw(KV0x0jn
kSKWu!t~|-[8@EY[CUut7]*dQIFZ6WXeYk'k-SkM4pp8W/56r5,*UG?PTrnW_4:Wd<K)D7<S[;>[(3%8x0#r)<2.ktcyNT6k]*tl
]'cW7SV+k3,[D6]D]^6h%XtzbyFxN#ZB;5T%Ba7lQmBu`)hV_m>f9dC6P3-oJ4zD[-V2.m$D+n]'eLlOMU!y4^>IshYu49D1A>Z4
2fqMs$(D@3JIzpp>=nq79%kN?g~]ipJYT+ywci/$GVlF&=o<L^Qm10FI^]-ro>U!.UDu2HI=elL!s,`<<1fh(WF*':&^KogEW6zI
No2aSF3mkDpBTbw_q3]1;AXp00<hnyE$~Axq//,.8:-b:0`=,Hqu<TxDT&I_&<~xjN8d!4=eX.m,5r)9bMC-z-$!%w),vjB=(Q>J
+h:w%mU10jHb5Khl`DLZ1/gdcKF*zsBihc]<47cTFolzs^b+fV-/B%>eHoLRl0(x^k(foP`.0Q?;_%$Quy4=<i[+iT/:ZBY@fMg9
?Is8@)<o:R)t-*k.F~!=7tfOPVNk_/sH-jlc-;OD)EuKAOV6toSbU|YR+qe8lSR9s$A@k$|+q`^jj)|,Dt5@ftgVEJ&+p#DxuNpt
gA[>,D5^tU|9Kz5?7r2&fHiCZ,UE5jj9o`A#lAtHQ?|IbyyFaN_Lnq^!TT)WFWw/M,I<H$xrnvs87Ka(49>$#s`7609LxmM.>k%c
1mnVz.'Bu~&sN$XD==kOgRSCvtt&%d!tA(fq2.cMh7UEY$6Z<Zhwm95gC^)-^k@0g6g`r2fkA(tDVc2zaz|^+x[3d:c]]JE644[G
(dI]Ep-!mLhXa;L:>X_%lR-Pjw/%?`J!YYC|f&SbMDF6:ada`~;yAbs_T2_D4tv~FoL!|L9M3oQ?''F'%*`!O|d5<^=q'110E:wK
Zj#L)DDltN5]@)FM4N54og%x#zsftjXa(Ith~dY2jbx:+Vax.>5M]rG$I>k$aFK21]YhqITq35ai;Cn@'WHFL|_*`JHm|]%|>u.p
G#?B'X~e-FD14+oNK>3<P>8`27_$icPxy/LZH%q?IZsD]UY012LXT~~[:Z,`=nZF2m))x8&JYOcZF@moE0r?*0PMymE[]((.dGHD
$@;nzsOc)>2EeJUf$hMShnU=_K=bm.u#O2x`6&D=2Rxw0V/D?0E4XNJg0xO$)u:<fTFp'v$a0C)PyIm[3qYbzXl:KZx>BX:=U;8]
ro7~!Xg>ZO/Ez+(,qiZBXG*8;zs*MK+De9jVK6R1=YQ7ALje#[m>xEWp<]%2$d'>FkTDrW-H7#cAHIQk1A-e`zL8>#Z1'4AS$UL3
ei)+6CO.7aa;>H.:*$wt3I3N)]&X?<_.=;?B5#h;d,+5O*%ox,$].>qE/aaeM+k.J-V+ZJeXrG_^tF@bc=7GXnL/`,4=7D/XV?lt
#I4IK_4?Ni.*,'%&2:B6~hK/aD`8yAB%V>i%G8(fGFFKz!`mqP|&QDMsu,<]Q@U1ln#2WjT)p^TZJn_K-/B2J~oy_*Gp+CCS91YQ
U_&(u,X'wu3j*XdzcBX%o_.4f(9@sOuDDKYB67WE$s$]tj9Z?Z-b&`i,72?lmzOFYm&IMFVGs84x8?L)n''JNShyH.NtP+w)2Zb~
x`.8j<Q|C2]DMm=,LDfFYl_Sdc18h@_^iLbf*uZ>l%S`CL5:vcnr:7c1n.nL=Q>e&*0068L/bfPXN)u2DDH.R_YW;1!gIs]5$!*N
h3,HzqqSo4c:`0.wS(Pz!C|]G:E(>5|QHx<Ajv-(k`BBujL,#J4=[yuxq^CoHU9MDQtcC|V0E=Lq>JZM5A-.ZMeCzshA7C1mKQ((
v17%Ly|Yd|.ACJ&4CH&94j[$9YaIhNhxOz[mGd_6s[/[/KUE[0JUoU'e.|E1'pb'~(e>]_LR[H|38Z3mD7q0bijmZ~;`i~z#ptg:
l9@i8b$&8PtxU@Qy_S$@Ivb<|2b;`5+Tsb3!?g&K(h$D.q66lsTn!-Y/m=w2#hU(gs1@BhG*jPd,?A8~^Pvw~lKvcD&IzCUHm;G<
J,e$gwsBDVQ-7^JUNc*j,'ElVSZ9!p1y`NKIcn;PUR]22t3HqT?OX(1rA:I.MH6/'=wO0l5G_>JNj;=Sl#F;K=&@t8iT17HN-c(6
m@]t.#xy;KKCqU,6<^j=<Kkk]7sO#nO%!~s<xo,4'3bQ]WLLYr5Dn*a@Z:L,+Odxg~LM9x@$2&Ck>:07yo5^Sok,V7D,]_msbY7e
3Za]HX`Dzw4#%%-S7iy94U',bw[V#$BjeEe4SE_#Y_84Ckw^0PBa*Izs10*S!hc$YeM<Wpgy<_9EPT!;6Dz>pHc_?<i+V-D~Gv+[
^V311@~J[)(%M/k^-Ou:vOwo4Hs~s@g*]d+]KN'T2BoM4aQDaFqj``]BW!vDpZ<$4f^2.6XrHdSQ8bvE^ka~<Zr1<ci3l_;|pZI/
)7YsN>_bT>q&8)11?Ak5ACLh:h=-WvL_#OL)wLyQp.A`wJYZ3b$|o>dhRXt>cp*L8KgKW`nOow/%h8ghq-|$)T<,ZIOv(I~eTM7d
xwLMj8r*=.y?^mO|>+6okB,pX8oj7u:cA,Bstz$kP<dd`H,ar2Czg`~m$QGJ:8U.^PFw#b|A<=KcyqD`TWg9T;Z@pQqY;/<*>^Nk
Jm6+7/ppB/!cz,(|oHC@R61(;LUzxyX'1d?sD0_-byPPp)[!G,@<.0B%/I#+TEoT2|9+KvRJXcz1AGh(C@77c&kXl_FA/'(fu6tP
>0Ni>@jrou_&ha?avqpE0Vn%C~d)psP#r%(oJ#o[++]h8~+>>>O7AJ*|VQrTX8E@fX5`v[r9ok3audf4yWwP;J4oa<7ouDZ`(,j$
Z(,~=vh,I`1jg:GPr!8plw@zd+SFwv4jpl%We%i`,(2'JCZ%j#iqPJ*Go@hAoY|Z60D'#tFR(K#Y]5T]cHvxqKO&n(/Wot$`:X[.
`O+,zc7`eO8i6ikBG2^T,Gc,'YGK=!(wF*1)&;(4SQY_;]b4RH>`ye&vU=ac:/ELAQs.[6JE]RtfdW99L6IAI(+mpaAcWsL(9=,4
3UQVpy#P'$sYMkE:w%uV?:'32eO90?cQ^&k5D[p/Ma#51~9uy|M,.u2Q=C8B~^h-I0<'nXm=f^a,$?(g6`c'3WeE9ZM!,b^P|/vq
AWy7H?3.rcFd%g!9OG~E^jg*zAOL7G[H6gon5ZDGrw^4bW$:fir)YYsgXp-gt9L)W:bF7*y:t[qmZY^l[.E?MN#BOMVbeU$clcUe
<K.ephrkfL<1u^<lkWj|O5NK0-ZuF=],PG78JIcyp0I2:+KVL,gz/=63li%3GQ+7t|A|w6ONR^?[W=-fwdnI0.=]_[xjhJQQ+5qU
rGL+(m=3c1&;m8LG3()B|ZBc$$xRjReO7bqjq67(=_PzG2sj|f=os-R)(Qm%euPvr#a8LmnPWjemmzN6;d3TS;YdR<Nd,:D+]avt
=lKtRQoxSo:[?B93W|%|E3wX'?',qZwECxAh3Z(GWI|-@#Q@t.3_p'qrJxslJ8w9rcT0P+tS,@r2jJyfa'-~|`^uRBAIv<_oV4zp
3~gw-'UvZ'^!IS5pzY+m!(oeK|bccpG&rz9n'3bkK:9Q<O9?X:kq.i8.DG#`ln4|G)NHA`~AoY+1f(@dFy51k'9@7#T)XyXJv5|!
m_GVier-n?@G>[FvMDLd64X--uXqcE45Cm82iIZ,/h>#Eo!!W?G06rs,k~3QR<+n+zqonng@])E;@(yfSn57w8.7R7h320LoC7nz
HDyH,hE.hGBE0A6y(vO;=a!#$!'5x(.GSoeI;dDr).D!Fy#8$>1b5p$3%_Q76E='XyG5IZc)deCI7i_?uQb5'>)P&PP_R.~^!HpQ
.;6b5Y)IK]AuoiBWKBv7iW&z`37C=f&4hsWb%^5?hTK5tT=,a-[wwXw.[4!6q,8LA+1q|$!UX3C51N:y__U3R(<J4MD'30ME@2Xg
fryhI[/TRn6*e<,b:3;/>4J~z|OCxU&e_eV,~?t,+mmKXEuZ]$xAKCnJF3TTERN3_4>)n5ks1)S[!!R[.(&uPP3lP:eT#dVaj`m.
IT]Y:;Fao_tP+40y_ZKd-HeN-$puPoE+>EvIZDm8jK[28V)#.wV1UwK~>V2P.;J~c^_%Rffh%0sBa+LE>N6?YsVPzu:wXHyltH^Q
^K8/pfq[l6@z=BNY3$6?j=-b@pBN^r11g((2)p'fkC>SNffDJ]SkZz7'[?P%Ja?E1@CcunW1e0$&$nLh6;<LbArO&?L44:w|72Bx
sP+'c*LCQ?`0Up#XuFnMGz@@><%CH5OV&9id(4r^0NB6hShbF+~WromZRR?W:&Oa^8eN$S|q#yIb=80Ku<cWu]Fw.)`#I$=x|tZ.
mn6Wkn'eD%#f8BoEm9#xO.+Q~C_q>'>+7?b_y_il1MYlTbjL0e_TYWfaQ98eu)C#62Af8+H]hl?4/|eMlp'1>FY<su8!T^it1[@/
VumSd+a^Ey=`hcWTi$?TQTUuj]2LTPOc)O|k~mxfkE>Yo?R,Ad$H&chRfU/Jq;R713;slA/?o;nP)g]R>n<68sgtLt8_26:Xs1Z~
Ps[+/WXCahPiP98s<1@b`yjo3<@IsH%*M(6oDoa8@H6`5cPNF%W&x)i`!+tpoZtPi.Gw=IEAQydD_fd5fY'~Q-X?D+@Bqk4zThN,
1]Wj^cc3uILmp+SnE.rF!`9Cw9SvJ&/~A['Zy_Up7-(v=ITD(Ln5fg~,oWH>?rbC9RLKRDp=hfWoybF*FG:Vq3)6.B>d/JwU#ei#
2)T'2VmOx+#g&V>j$=E5yuBloeX4`RPo>LQ7Tu~T@leNoIpNFZ@-o@MWF%c[TI!NcdW(]w]bf$m.YY-@NQx_6T!,.hkm5lpmtd2f
An[R*(;g6ohe||aibA8^f]Gfw(9+(:a(FZmudlOZMQb$:3`jj>xM/B>,lfCb'?|8<W7d$#Q+]6ZfRk,USzZT9ulp1-HuT)&9?GIC
cQdJ@`kDQ]XsJ3QSvC4Pn]=tmD2.4])u(6[uv%,#9j8oGxJ!bnkxcZmubd%BhvgRE0L81RG4CIQ*ezLs;.%nJ'tq%TdgvH<-Bx:-
_|Q6`Xq$`-0=<dXv@B-bn`l1G~H#>wf^~zAE&-J6K'jkGI#W0P!9ha7+(vwl)fn^x,ARmk,DfE`OcJ-l9g8p&h,>+x%%`[glnHq_
dBT1%/t4gQC<NfTpav(+v*DrFJ+ORk7f-?|BVL6'xl('(LB`Lgjq`)6/;Kun!v#YG$^r?@|b3Zs`z'|Q,q[a@:~-=$0S'4<X_HE+
yP7ZJ]e`MgrC.9q<R:v?C])W`A0gUvS#deY%Hz/h@r`=M&y24,E)@Vw74r`Dui,.eFpddDT<m[>WqnDvfkM7KZ';o-m(_6+%mlyz
A=MI<L4edQp(BMtf!6v.VWDk`,Yc^UWv/yGv2kvZJq?gsK'1n!C=QqXXgBhWB&wc:aGxOr5Yp[pN[[WM12==q<ARPH~Tu.t+_a(K
~/SWNuG-L'47@dyI$1S/w]%@YHX</rF@r]>bpV]~]lmSt/eI)Zk1fV;$Q1=-oe|Mf/=y2B^<3<`09al2QqD8+F'?3=DmQV[(nSEp
:yHFqGmV)XgSG/T*|Uo,swx9;Ux8p`TI2ODo2/A43l!Xq-1:`2;Ej4EmHx(@NwUfhb8ECTdNQrKUur`dEK|)[uaz-FT+/x;/16rX
%X0~6^'X~&?GdpulC'y8.zxCkI-2G`uiC6w~#.ePz~F%wt4t~^7ap02kx*kg-H.LtHPr0n)O]8HIRnC3:xqWPbEZA=vdLrX8ug_&
gXcSSAS|PI5+!o%%_<d@lHM59T=:?_1i@.O,eFsCJFmD*+QhRfG!BiP7U,sH&yIao|_u6DamAyUncN)@M~SV]DE:ir2~b|sxt$wV
<+a->:$%X!u'8O|xHt=.FG#lWcfX0/Mt[~]X|w%Gr<Pj|Q@q6|=Ob+99n>/d4Y#_m&~P^R[@!0qw(a*+U~rA&iITSVs#?k-4]xM)
X(8fJNENRk5`hlB[g-&U(y1BE'!&ul`ksq@0g]zdr6*v,&:_D.SH>emd_bq=QVYa|=e;,(utN1,uQ`P&[e=1*7x#s25#Rf3098'i
B_fNs|e|1`&A=|g%(=#n_#dx/oy&N+,@1JPn'Zq5^uh/$9tF6^Hq(R'X]qEf|~Oq^[~/y=.)S!Pu3uaI$D98j~Ly7vAD]b)jF-/`
j~bv-[Nt|8S]8[<jlv+;Ci`3R~r#XBKu]cW&f@N/x4)TPW&Km(2XG/c:Q[mfC~fyyHa-[[ixev!KL$#GS|9M(Z'Mk(O_u0'w]?ki
a_TllZ(-hN0vJsBXDXU?K#v(~&Fi#nhXZt(/G+e_K%v~|b%JFNU+6'g-V?I2`Fn%PT@K[y0U2;EMzUzC^5&/Y'338v^T%R~&*6)0
;I5#&me=CMdao/L'L7+e@y~TBZ.x+>ZiM<h:x<4*KT_|WcA;L[|:nY-rFJ@~(NsJ%?apE#[=;MmiT~7kC%*u:Rsj^O]:Q+XGf&41
CKLgnlE(a6O)wbULxg)me9Cz-UTu%[uf~WB/`tG^fRYz6FT,%#u%jP-u/w;n!Yf?0Eg3rhTL*9fqziE*:W[C0~=n/V<*aP~,BE&5
ag$.tth!dUwV7oJHG~bz`h&2p/!^/7<&CCIR&EtULc/f)waMA>mT7QCWdMDRE'Yb5xI~j$qPF$zN>;!M;k)$~txXK<;#N4yk+%Tv
E)4I!1623Ggw5Wr~+f:x9@ZY@w$hEeyK$cbH<ahCU/-5r)Zl'vs8#l%/7$%shGd<?Ao%CMB_@#?iaLk70X%q%J;cY+PLr~W7A'.u
umYi(;|wp@5A+TK'Cg28@Z%SJS,&HC>^HzqTgEc6vv]nAR(gi)s7F]VrupY%!Ebm,!4bz]C#q([rf15W6w;xd38@-ORznd$KZuS9
<C)tfKl-XA|_PX5DeH/pAXe9X[bZ18`%>bq/r#n7gUr];GKy8tW3-[#^>7H42ceK;)#w]/g?H~n]uf]knES!dJK&v#`x5lW^c_-8
|<JM:ynIpD`*os3Pu7ATw_oM9vkbSEIGV14JJ8i&-Z;Ntm.'u$Eo)|#%fJcdJbbWL!pO;3YRk'PltZT)T~FoGJ+Sg$sxaeTw5,z.
i8s3Q<WG|KXDNgfj%xcasSOsF'b@)d02_cb'w`fB;eL|3Y:8y93^Df1L8&Zv9H=BRn8s/E~w9=3S1RMv[:JJvJ6L_xzs5W*MQ`dL
rP,%R>cohLJH(].E^Ac;&v%?a4hX.Z)))oco@S]vdD>CUDbw>0Jk3P]jEC.@F*Fy@`M-&E=h%#`'W:h>||_nvd_p310b0!zQsKfr
:lS>tMibKG)q/ox.Wsil(q.[p^#gSd*|bx|d<3@VOst3CVe8.TSAO~^XsRrL|1Sq4^bmEO#5(5j?./g<J|1,qlvM$,y=>GI;KceF
WcTbl/8i$p/f~v>$#;PJM2)&E~2#W]q@]&A<D^awy|jQ5yG>2A23N5^_tmgM8@cTqx7%+K!H]?F1GM`B0ZcogovoQC]w*y1GTGnF
**<z9RB`o)_BzWIxBfdoAp48yXjcb18d#_ra1Sg|uAyyMUM.`_N|>,=W!$9sK^nH%2U8C^hZ<)1ph]Rwr_vbR?Zf?l$aq:(j~|1P
rrd|ji^C^jphpd6G@PSdK+l-,qg!%LKdG/nexo3s<bfhY<>s0gddsI7]Fw*2h@uh2.VspZYlw3'Ca$cj8a1Z-^DC354TFf#.#?$W
x/izR-~@8%8bSyW_ma3JG)1f*OIE*i+FH9y0[nO+g0,~;MOe<koYU_lRK,F*s#([DUQbLS`!a0,/6n_#DX<Af^rrs-Bz!J!/*'+w
Fv@Vf;v(0>%$T8Rbc`sr>`/';4ubXLCK;lWrP,bmx*Yg)~PG7U,|IDqbRJi;.-lrI~ke8pc_B'aQ^<Lagw!_M[XY;4.N3=//'xGa
HhE!Q,azico|'2vl6_p1Dms[`RQA<tRN#&l~^>+0F6a-+xQ-atz>Tebg9zTjsY8/bx`X+K]3eJ^(`M@q<|3vLh[QIZ-%fmMjbPt^
E#OsfA&OK6`;~hz,oeE2_a|n-5SO:Qetq*yGL+yetF|SskU:jwyUR6.<9gm<A?[Fv%S$%noz>v]EBn&kcu2X,H|e#Lz/?_%(A2<2
$<QasGW<Q#P?|VpaFy4X^P&6P>PC%kkrO[K|c1B-Slj8$cV.keToY<)*#9WUNjK|t'<2jubWN98@Tr.xx[t0,UK`w;VdPxDZBMv1
l5a''8^5s~L||uAWavmEbA<mT2K61r<gYxk8l/.saTgnNHBq-=;/,V^')IMg%!`1]U!^6,p2pD=AFuDH&8&$]<@|2|KQ9d,f$8U`
Cw5>N3vzEY44H4)x8@Av:O_6pnlmVE<KS`%^!)%tWPXP,2ShCT$Czn97j]GH|p65+~:%owBkiW;%hZf~E9j^^]zWd~Z1lo?wLy.5
EfN/94!P0B3^+p8^2Wr@?a<Bt(pPOgHmngEmOPhjTb%9`[>+eo&0Hx<AL8|BS%L8vDl'.aM8I%)2Nv<PgW:r<iPP'v`rU%+$*Stx
=XOB%X&5XB!R6Co1^Eb)S6Ij@t16igPnfCen5-4sz]7x.T^Z#=B6AdF&ux_fqA_Ab9pp7k8PY(U..EDUV'iQ?pGh2W?zAR+:Ao:o
RZw$qG>YRG|Lp2(L$qZ%mA@BWa<nBd[[<cIpMFS>WjY'AxYpIOW|4J:OB2mZC`$j5RJdCt00RtIEQ-oWSyE`I>0zjtG5sd7L,Kqk
!5nZ7LuOf^|YljqbeJb|JxVI[,>ePD!r%[2X'v3n(?e|5+Sc~uxdLkWx@]4MHQ,GJ[5`gMUtccz`uCRNu`e0[-w:@b)3Sn3ou<rM
`o,*E[W^o|fBjthz5jV8A!/UtR&QfwYwgAH@4iD||z1^YW*NNV~N4)>j9o8%Jtp9tif(i7i`H_=5=cP7`QtpT>f^tH3]|xT='Ci+
NetBGR_,Dc:Z2*sL^X#1.-%wpyKde6v93.gpEE~Q8dKB`r4v&%eyDS_&!ks_nNnMFItw[YhgNVr9h~1+PT+(Zs?E`d~ul@l[%ih4
LXuhF_f%(UX<FiSM:!OJ_EpbUt!f^sq5L;bG)IK??OX-LxI/AFqF%jc#lTk_U9</j4qtF=$I#;$!G70X&Snp1):cvMIj9gnH@`7/
?838zVEvJ3|/Otx?Wj>uQmqKL-,=_lQAr:7.[sfx'l!xi&ug3I?8oC+T<r]E:'k.0[l`G>s7+]0OKuQ]'L.9u5fYpW);V(dkU|J&
uoWJ?*g,'~wv7`/owZT%sS@%I>|kiv,Bvw?,T&g;+?_Jv!m[.a57PmZ@J?_:UmdxX!]h_:O<LZLgi|lN3*;A1?JEAzOj~!vPFM][
DR&vi^[MT-W`%]_84NJ4';,&5U<Ijs!/tpp3-+[CLzdO>~22Y~ECuPC>L/;A@(b3O&?]$F%8h=V7=1g-[^SwE5nvK]/SB@2;DKc.
r,b#/pX<$G/^>gQYZ/Jt/b)X3<||yW+:73xT):TRQ#,mO7B47/|?%;N//KlsCkJO:/]`m1bX/N9aLoHrj%R&Q6MHxQIG-rMs'9;_
3Z!u?WanW34J-`#b(_dMmU)2)EB_(d4>_f5x|d>2]!qLMt$F<:I(#cK`%q%KBC`,XX1iy^RUGbvMIF<I'WQM_!A@e28!&EIsw4ud
Z&N'7>Fb7SJb`i9By!'%b/9::b+~ct;lb7B4J>#0&?o7*N&C5h8+Wki,DLUHE:!:5ujgn%V$<S7u0kx$:=f^D0p(B;~P-f5ZcAZ~
&6aC#&F<:$PI-Y:lXwf|npd9zbu[&@(c0qe./U6;)u/:~I#@+j8#|T,bZpJocRDjb:[1x|Qh:;]eYGKRhWl#.ar&A7VF(N=pP0Xx
||c[7)%riRj:.kTpF_Kw4edRe?LI&Fxq5)X(nN]hHYws]L%Ng%O%LMWW|8&8nIvA=Z2GaV5aR_~EtDtPf+,;o*%QX#_^:b,oa=9=
sfw6-7XF.a#v1yOQ4Sr2XvnG&<*jtNX4V.jUJ^xq''U)a+=6|nd$hNN#wt_lcPd`mra!x<GN@hGX~!JOLPoEAuk#E`o>0N^Z~_QC
ZyHM1,&tqW=`;QJz&;+mD6q.L0~/^q8A#ZKK[_`[|7/.@rqex%N2<ZMiMu&;KMeo90w9zo19hK|=lawC;)c-F72q)*Ya?`*5Onse
p$^H8@X7oVwknpkTarUD;6T4A<l[I9t^z[kufZK83nSy&pm+okihN*yG-c9LP>daehCD^b`?Yze+1mY'^?G09>!#W|UGMO1?9Cq[
&t$W.715=XK8S^>/p!-FnUDtrqb5%|=86?%|7skH.^;5N+<53T<S'PmMdnM~b|iVeVr/p'LDKE'g,7$'UGCjdnGHW4K9p&##WR5Z
8NhR$pFC7B.`8xPQzI)kHUSncIeGyImq!$!iD(m*>q/:DXU~$;%J.2`?OA5('sp7w.*+pQE]P?OS;4i8(7-vAy'qDOVi(13-g&;M
w@v,=yS0j]cL4vs_Gq%wT8@C6OD<%Z!H'CCJfDU2Wb74^6b8.f(pM?h;Io/EzPpN2%z'D71J(T?kKL-yp$8(tD*d*'cqV1.XDPV8
m>wXEA_zM_I&dp^@nX9O=(9obsUC]QDef$xWxAcxWFGP!xD/pv:<_8;1f@y&bj7B#6?Yh+U@5Xd<=XD0EG2|1fzn-g](C!ExlQ#^
KbXu[Rs8@*-!$0c81LDKp&spG70k@]1UcsI=;dj'G9K/[N@[jMtxIwD$(fn*i#3?2UkP|scoYVk$n'-z*V'-Wei*zarf2LQkU`(+
yYXdm##R.'OjkAy(zLk-Q_]k+&?u[qC_,Ms@,Ezbzl$J~UR26n=S046<8|[V'>Jv$5w%X4T*HDVd$?#r:Ec](wEZ@y5m5Cy4>Cw0
Bddec!kVsidUGG&*!l27o#ev`Sh~?VYD_R8p/<11UenA`-ExEi&PF,Hd?4868>jz%xg9u0Kk59Bn>a!dgx(rOM-[IL(KFXI*j,`O
7ERtWR<07dZ]UBT'[ePB~XKMs>+[jYN=EBa*23bW^e4uv^9,A<m]LUD>P+U4bv5J8]kpS(=i=0=x45TG$<E_><Wr[:ZFc~QdEN5m
M:0k-=j>4#6D#OPg,-)P8Ai|3_NA*(4|_:g'b)I?Y5TJ7=1;+zWkI$trh=79l`>V,B9/wl.oD!I0(~')xr(ocQ;yP4RYk/~*zaA0
EYyT1,&69Cv53aIf?Y<l|&rckTxVkRvS]Y,8^o[yL|U<<U+RuP=rhw1aJQ?iL/)r#Gq0<P8MZ[[/bH-J9B3aC:`h$s3[#]g/':lz
r%mvRUz^IGd1.J33'hxB0gWQccAyiZJ1am#EOtQ!&&$7Nc!8+fQVXU52HlCmW57q(J~Pbt?:Twkr~*;)?t]SVtHs,&HIf|T>1XOI
~1IayKIfUBa(.4+'*;$[)aGN,I+IKxqL0Y*dLLRJ~KF6@_&%6cV6i'ES3h=jUk=M,XHNJDCA*^e+/B&~5/bh)])+[J)c5|R&'mAZ
n:[E][9xjMs8KP1?0KFhL+b!'aG*snk@2;i8uD|'vlr3wytZv|NgJ!X7&&(Vm#4BxeH,0w^e=~2!Ii65w9rK+YNL#ba1[;G!8om!
vs0LA&m5Yo(igzlB&Xh/1ep#:l45*^L!s@LN5vS~JNET@jy;ISrlFdtjBz*_P;3.iJ,*PB;*=K_WW<'y8tMUj_*eek2C#PMo@124
WQ'ie,]$Ya6[V[h#xRcBZZM@Ls_Q+AIy!gAu)vU[vNb0H|=L59b#Dku?m@/iGd9a50'm9LR5#cV10&[wSyYIjCT(qIsV2Jmrl[V9
P'|)AGv]&%ao&-][xsQ^/FKCS?g/)y5[n$KyP6Y3x]+VwV0ZSyQDc&.xdcp<B^$Ji.?%L5JO]%Mi2&uK0|Kh#y)CJu0;':DQeaFi
aYXG3eH)@4)pa_okZDdX(mWu/P(%wlR^<zHnIZ.FGO!5X@a`3YxhY]BJ.ue>ox!!FO/#H**T*567Yj-h>Tv.c1N?MW`GYg>bJLMx
YV%;B[W1JWrdKkFJ/4&coB[2C~.$CKOl](7v6dQD=tjcJ*?Bn6PUD8x#Z69|2s~t8ee&1]VHfGk?YF(^Jm#?m/D!>f+sn',j0/PP
bEE5sJd>eb%JeceCgq[DdX]ckgn>BnsQqpl3HwakKsqMRM7eRZEqIO!NX)[yNC<FnB$SYr#aVzv#Z3TNn<););eucr^L^?ZL29Yx
;F;]0H%/=*$(MpY6D$>o5HgiT073|,za+Lw]0AkE#qryD7%Cg+c*j;?g;Pb7=aH6,('ff;0sJ4H:uJ,T=#q$:H_wQWu;>H1<0Rw*
-$m[b%2l&Eq9G|M6>&;2!m5?,zeJ>F*P.p69z+z&mE9>T~3.0whg&T+EuFWya9m@;V|1`]FYjh~?|P+wjlFxytJKQs:B(*pzSl~v
o#K)`h@<0;,$8sdC<b^XQlbE9@yeOg1-w1yCulv*O;kfwUzM#9RtAHnPSe,CgxmbaCIG]+Ol_VB>,:]msBo3q+>I+nBDC(QO|^k3
Z?!X3QKNVOf!3!)3?;U(qw:t'vHVZD,j_1~HR#TZgfH360)s#5pP8#?B80S|HMzE^[VtOg)PKA@*7nS0a8H4aNFF-&N=M*1U(2l:
Gg&YR2jw5[av<kpww5'9TvO:7*JCezexvE@;,s.W#0!i=r#'$&J3dv~CTh*mJWCd.n[85AYi*,x%zKET'[#'w/C^d+#BE+pty_ma
!O$f#)kFX=u'|et~]/<ie3DIZqdH<6_LZ]'avmB%-NgHk;-K<Z,9K#RjiGUEaC3FmNOLlzgrS,1kX^Z5cbJ#])tq+a%#E5&6^=.N
);X6?+/AJ]QG$D56ac`EF#%pNqcrZe1'.LGPYfN(=5id<iyd3pF+WibcMqd%TQa:r^ZhY[_Lb*5cNM`8~a_+CAFu|@bp/-uVmXk7
b`3!M)KeoHAU1m&uq<jnv(@T+.@/0YHJfa!:12`3&%697*cDc=YpM'Vu:Ib%D[r:|GUJ?2Bh.1^JwumQJrH][t5E8bfWLZ|B$+<U
IZvE)99!gVy^n#.Ot/LghG5<6M(k)N7*)X.#Za36:8/),^f?9mLROE%vlP.Gdfnh9C0;EJ3^N6Y]HaC,&V+4q6x'O$S,h5ZZ&I%|
ug8:v0*=,izh[|xg!e?N5$ILxW>3|`qfGIG$u<>y=DQ(4@3ue#p:P&BMSC+Z(+B]$am0v^a2YG4kd,f~!8R'NAY&dBIYBR,oir2]
Ea'DcQ^i`hN_Q1'#$XI+&_7#(~5703>=jE9Ie;^c&q43=bLJZVQZ=tv(]Q>2nJ+8eye*,$nD[GgQFuQlC#b<ji=;4/x&mLX6:-YA
Qd*vpc;Ua+&]&o!ZCyL#Cms(fWw9v1dgfvgx3zz8(9s5MDm@O2mcpxW|W#Tcq*B4VvHm-*Ki'?r`JsfWXlb6w(3I,SQnAHF$6d`H
L~=zG'ars(GMK5N52`]>O#(o2|tqHTTH=.3lkrh]W8tHjoUuvd6pH3_bM,(/G@?FHw5WDu]|O[b<xrU,Ya6MItOkJ#IB,:ePPmp-
1<@jFp?wP0f;C3A3oJf%rZ]91iNf0|.%IaoQyu_Q=R*$KJ5TI^/Y7;/r%7l!>io5<ohXWJCI:$A]FUt.9PKS?,@C*l[;OXeLs,+)
N&J408MKFt$oaH3SwhA2Qa_#K]XW0iuw7Ynct00X%2)ub>yfYqrbDF$X3h4@Bm2)QHBP&O78pa8B:=r&cY.$)Q/*(NS7Iz5w4LGT
oJ[wSZSSy%XewC9@s.?EGoDR5dnKd:<;<t:8>Z7XAM*GYD[8.0W%(hED'M!6u&uQkHHqfx^yp6JAdRa|8#4~L^hegr2zuc%*U4@8
cU<e1,'].^p:U~O?k1'k>N>[QIqfBxfY+ePS02*GjG^2GH`VF$in=->jk8p)X^AJTQsipdF*!4'r*bNtTZEX]uKO$Q4~]V@t>u^i
fXkH0GIR|#Y'k5b2foqSf>.s9L6(LDDD>JmsZlcy4G'-XYXnN8lYXu)l=$=%Kv4rZuHe[.2o.V6@K3(rf!'9Lj+gA'flva=Aw[mF
(Td6P'(kQr`seM.IWC]rte4s>:|i.;`]uWoGlb0I)nxguM%6T3Nx6[y1rUu].CJ)v!mh~<a@t>78!ZF#iyD?]ukI$lK6=muH6>F+
fo:@PB3jhnIZ5G5-9<LK(7mRSv@6`xW1VSjNEJZdFDox!rHCZ^/S_#5Udr-lN?pgi'0ClOZLm;w<JGwbE=<47nzzlW3H9`d6^'q9
4pdCqL|DstK-?Y7u7]*M21*[Hwev7$&0hJdtKvKPkCXjvt`G;|v_I,r|?5N8m-;)T5@q`@!!ws+kiK^8GVnevd#VM_So<U5SVF`S
RLSto,Ci1f[/,&;,YW.qq*/51g~#HI:0YjO9.Zi7MfhJ)t7i5B#w[&mrN.n[g$2DD4Ek;4~Z:jJ*ilQ:25.w;<]bg%Vn<R,tvFPb
5&rI1oYePyIvfKH|O4<~?ZZ6B|z;(l@MP!G~Tc*/u<&05od?bRC<i&)>wmoO''0<c`47_7KBXV]n&ut$3+F,d>?^]AqB;x**(_(r
IHxV,BNV&qw)9ZYjb[a!N;z401BZQo(IQ:67If8NVP:,F`&`9f%V/bX*1QXGGZ+P;f`dn!t/37:U+J#;b^q|Anv-g_lm;yK+_1^2
~rW-8EJ:gxaf>8L'4@)l|f0U&j:Iw(r*@3,Kijjy[97qKCvztIsGCG[zO5DcpTh:_^Wt|ARH9p]*Q!Dl8O723.4`4hrm~uxXOE]X
-;M@&B1w3~eAn3U$X6VEqX_^B49,>4Zzz*Fay4w=]<UT55^l)e,xrYuDcvyFF?A/#dBVCf-U]I!'[:QX,eIhyWkVjl~BvIQ6yg!-
lqU!F%A(HEVkDua(4%D9(1WL=f^e+2*H@ELIysAvz|vMUt4Z.&jC%pxeK=1'4Q'zaQ^NXWpm,aH+w~-'TuW#H_l<o)14>lW5WsPG
Gw/1?<$eR[hhrI:yGz$#K]_[`<g%%lRTm:)f_BJo#Y/f:A=HH0JUYk!gJ<Q7+EmqsUV(52u>1(37WH7CP:.qI83pi:74d*PjQSMc
|miI'+)@Ly<B4e+vpzg1:aZ=W3:~:3|IRU&(nOt53%fS'i>%E3&bell)ga/^.l6D80HebE*/$~0+MX-86nYuF9A7py,oUsnhd#2o
=jigm=m#cwfq_yn[qxU_XX]C-+lS~HW<`i,z9=ecGBNx|OuT~/yHqS'eD8'CpSTc-J^G,|fX~],gD5Zq2l/:e$K-^Pm.I67??,=P
C*ds<.VBN=;/i,6=pc#OO/1jk71/F,Ukg*ZSUCtbG%f~-_X:hs/@R_k(Hi'fpmZftjq)&<odpvLh:=:d>t%V^UBlhmB~kCpbjEze
;;[/LU|a34KIVZmQuaRD>nu>xa|~M|hxN43M6D^:I9At[*=rt9;Y%=<m!^-M=aL1e99dY6u~ai/DKSX/8[KRqLeFt]Uuk,R!&u~c
_7dlY%xE~MN1Uvq0nilDlw[JTfj7(W=$<JvERKax',q32`*%s&6:5!fq/M7,R32^6GtlzzG%|q84zspm)|iZG>t]ir<71(kvl+cD
F@<~gN7=I*W=7&(zi+UEP,UV;~5#wj5A!yD8zVzJsFK[bZWXA^c[1A%rPP1re0+1qdgmTQ5u%UI0fB)Ld);q@24hcmY<I|uc>nR>
7~6]yKKNPLOEC&n2QS6O|29,Ui*:P+AyO#Z/b0yq)I?Ex*!WL^YqTVZJ0Ma$T83(Z88gq07;!|_p'Oc>@DOc,Qun[qpK*Kolnra'
ZS@TcDS^Zcpk/n9U'ne-'kWg('F2H9AnH~FPI[W4_(:of>.9>T&[LDGwYxwCzo@G8p[0]&CH&A'VXKA!J6InHAu0-Vp!>+hlJ|mS
7=/-Gi@[+0=~!%|?!4qL'W;NQ'vir7-F!Z$)mT6CXY~f7w0~+yFm5pMheR!SO8C[z~B6jXn`^JONH[ocuArHn48+^n1ziB`1Ef,_
Q^8XY+&+#h7%Ynt%rN%]NWS)tIQx`0GFIawl~02B9z^!(]?NoNX`HuelXe-n!!o|f)rg_^^d?O|;EBZ^g-MUR#1T;L$V[^1is^2C
3A6aA)BoaQ2CyoV($P:e1wm3dP#$?D'BNO8MW3l*9aj9!;(+fquqD=3xgjy|&%x3_Wc1djsA6?HQ'YIoD]D06ZK'.iFPwhVUB`Kb
.|lBW:3c'yEGp,XI8bpUoPhwHAkjYegj4#Anfr^J#|-Lm+Lo|:2e=]`5n|sJ+yrB!.NU=_NUGD*=gvrqtcsqvp1?eZy_K/YTOE0[
AC5)Ib%0^huUk>SsKH2242ml^p>zinf2n/'=7Ju6YYWJ)]&Y'I,Awyc5d|jQyfb(2*pgZd<95=>lU[gyI4#w2d%$jDfnwsZ)fyo1
ksugH3@.zI#4T+0lT!$MnfQyMD+bo|W=I=ret^DG<k;|k4;E!>(:AUFZO`bib)TP/ohhiuxzYgAmOKg_'uSHu)psjgE:G'Q64D;^
p@QWP+rK[|P+3b1.lTG@z^N]N9?$d*(G:Fl_FmL!OXB<>~/618X<rrxOqi3a(=W5=CW.WxTMK=~fleP@~]c;4QGYC|e906B!04+q
@l?u2%'+gn#m/(Y1k2ac,N6#(0@cGy=w6(2.|XZ]bwU&$1.j)<P]s`zb,mfaamyk_z>vS$ZtNIT;|%*YvW(dyAt~H[:Evn]8!3tk
vILm~s~-mnt~5B:`Mbc(:^/<idG,*G9nN$!]V>6/#PBWiTy89Iv7Ztd)t5)l@|Zv88HZC_0|jc'c'fTww3:`EZ13@Hp|-^e|r.$a
=^k%fnFG75Bi=Gs!,;TubF~w%WBA*6+C++3:^5CWPFcEC*/v^1[iqf5Pk5wyZ$;Ru>U4_EG5[!&tohZ-rL[,8J1#SQo1nHs1o3UO
GOPE;.*1Q@w#CxiPF2S.LWtBl>S|GL)gg6wb=($W7j)Feyzm+m1J+[;w@eR=$>2:Lf4Cs8iE(`cxN*5+6,rz3&Np869kUT!+R$Ox
/Wq~agYz;#*b1ki$5fx0[guK24;xgU3'BAO]]+Ja,To&[8o~=pCbM7_C8gcB584J4#%2RR.xy56|b;%g_]5VKU!L~Hof^7kzJE4F
#iO,[1>CmV6R`h5j3%kPhu7RV_i(N4V*)m8iBKHlNMku^Y#loucOHv^DmHI7dxDujLo/n]S*rqatZsuG_E?hZZ4`xs'n`yY4`^b%
.<#(cE]0dK[,nsTl?4J-L5+Cy>k1uF..w2,UR&3rm*lp-7:rY#%#;NF+eyaSR|b#t7i##pf3]?kKPNUD4ctyi'0%?JqL?IEdynv+
P>b'.1(]BF*BLbJ|D,ZP!BX3S#(ceHuq?qMdUYQ0YC0a;Gom~0&D+I`rX7h>fh2SUdt>;|ia[G~6s~BQQmXi,(hWC:BS-[ujiZlX
VW[<#qb@[IKZRs8)k8@[MTgO<=J0UOvF]7taZg&)uzSDv=jOYIo@3MfTsif9v-`^,<E|V|8+TF+u.vD`v=U&Pt@i-U@IUGaq@~@a
]3~UM/~ydwP&q-n<$7g=Jj$;^+xL?Oru,S-u%`:7rQX,YYYFM9b3nNa&'Xch.]cV8=:</P:tV*;~ntJKgYSwy!|*a7Z/x;![BRof
HM#U>aNPO+Ki:S=KTUd[)@u(dk4N+&,P+sU4uv<.|gYN>*@&`aeZA5/84~X@x]Zg196xSY_1?7Irv<|Si@^47Sy,x_9)BOgV]kf$
?)mUp9xto7b437yp6sF~[F*Qq[wZ`WFj.tNl0?K5@i8zvOXdson?'Oeuf-S`BRGM79'B`V*R(1&@8kTJrC~(1+b&3hN2]e,d]z|i
=V[WFLe|#@3%rlCXA6.U=Z0YR<,U7F5[hJu?XVT+d(JJc[es=4W#xAw#,O^K|3T|8r-$sqa5.U3%O$OBQz>QT*=XJ47_3~vHdr%]
/'r>MHj-oC<D-#V,?G3z,e:Lv[dly_5*nA!,G<]dCaV#JYr[;0VFg*ihkK_7f/R@)BCrTGfW@lp'9sN7*q8BN4VjHp)!1t,Gj.k4
zy<iK)hepf6OPIFd~`2[L0^0`$%d3x^9gF-eZXr]-+-5uH(uu94!1UDNr7!ejO5Um,*T-3FmD)o(AY(J14-2!8r->p|k^~rY56k+
U27#?L#rb@2)y2P4RNc&h9E4_|Hm_AEQ!9ezhInO02vOi@Jeo?lv=h(G5]`kWe_IJf-bHwj!=8P'~#'PR4EC;[K5^OJng|fFQ>'C
uJG:kjnWl8zG%^4|T[T;)8/kyj2yDRmwg'$<>e20AyPq@CNm;c.>=@z+C_n|^Zy@*0=Q+)VcO)7;FWzh2^!!lnc<P|SL&xU'9POQ
KqluV2f0,ga(%_F`=iLu3H_AR69]@%CQEZ]1R@?26T0J:[`~EbV/iSbt[ufZKoGK/p1(0y|B_9WL!9L%a;&S`[Q+<C:~m+?pIL9^
|wST@imkg?^oq@x7OF>sUTh#z~5lHY3Ml-d[vMs'.SIG6pkzdPm>&_4RnX@4'C6ggm,nGgVOiep3Xr0Abd*)uhr!|TB:UaN9&|!=
b#Kn?rx6q!lJkEZr/e?Ry]r]>&oAgs%wk%<4&Mo&HP<I6%=@>>$5NW'u~df*p_Q*T,,8mApjF*Ur-mVVKs5hsCv%*?ON1/^k%H-?
V2N,F_a@>;(Q4@,+@bSH|xn%clP;ko+lu=a<mUO6-*Q|<.;:i>duk?/MY|[A2-CI1&yQx7w%DnR&Cr<k`^]-T9[`$rMWbBA6S[d_
+LI!]>30C%_bP5G,d*::(<yq2lCcaV>l$f|:WMs2CnktBq[u@Onj[R#4u&120YXPU!0_z;V!-=msdA>&C7;IiM$5>5EyE6#6EPDb
3s!Vd(ik]3Mm5*nfZYt2.DH=(JvPQK$8ld8;xMNY/@hvMQ(hq@x-&FBkA>V_WQO=#*d;Vx*HsysN`tVvBBq'p$`6PsS7exIBws*'
zXSyAgAS;W-cy4`:nE)SF]GOhG(F;,uAc6|Ua>zzL>LZ.S'>q1'~uQF!8-L@3:JuN5)a&=9Y/e^LbO$Uca#pT<~=ST#Bn0]]((PZ
&i!c#%EqP>Ig/sb6&lWKtj,GPp%u?gnwy^SjemC+IoUKe3iIJ:$$7U_sD#@<TU.2%nT~|a8~D|4(h8GrD'UyW*y&DrI;enF+jw,^
dcWOj*$:_;?YOyo?[N`]NsK;1S*bq+^~6&id@2:rA*f[U6V90hflYKf,+w<@6<gN~_IC5)Vp1rxvE-sDr%dYk,Xfef(:i:5t74tS
lSowG2kvLWJ/MCuT]2dn,Zpdn)?PDw!wi!1i_P$E[qY=qcED@m`d)y^wA!HR)Vz8x:@X/hO(v;M|WtQ~f9-wD-3pM8IdFpyet0U|
(6F~hDo/*$?(fGQ#UL83/a1CBCHQ_NgIYoU4mOSS$d&3?P-~Uo8Px_:,>4_~BCDY3)Bm16cX7ts_pjWE*U5);PYZgSlL9N'/~wQ,
B?P<>Imr/'l(2$64AxkIUbx<l~3&;*=g$3ohvg%vFQs'41%gel_$DZx%c(@%:<$8rUGa[=N@f:sPX]L^nj9.h&^>D;*fv+n$)2U|
Z?5S/2vvm0*eeZ7B:UhAUU~)Gthu(D1Wg*4&k@ATYYJax@i99N2~m0+(bCyu*;P@FA+SY]=H12)xXeTsg:Z-R+h!F,+~2/]W,d_U
rll0L14YoI^F70lfqs~AQo!/rQlc#<u28Ri!!/N>Dg~NJDP4t?eqZ-OWO,<v<Ha!CLfLc=JimvPXcs?LF,f|s6S&-+bSwuXV.Jq0
1=nI|2;:Z:IB9Uy*'iP9:oyU-$&V0q8rkjIIKiP=ZW1w-@2_|fGNOcA|OjK'f?Wo6F;.#O$?h$U|Xk*;/Q@E#<-?pb9bL'c=@Cvg
G)=JD^IqE?XSF1E!x37uB$_H2r:r+gBRl%=7=9UxstU'FTId@dd1QT@Jbc]?Ik4#-9Hd|UbEAASkXZ$kDB8+98|LS[i4h2)_z75P
as#l'nMh,?Q1<EBK;_9l>*+B$sBxL@~NKU]>Fqz-hx*vJhrX+V&Np^|;r;%Fg,HG/8W8ixO<(aF*3~iG_Xn*e~XO&,e/K7G#bsJ8
ej%BRu5y[-L2,0AZq?m9RK2`?n/O-+d|fesB4)T.9qc9G,(<UwcHA>2@x4+Q@b'Lqx1/^N:n4W-Cq3a#m[s]7uSy<tv4=<m0Qv%v
0x^.4J9T@g#Uq8zn`];k>Gl-T`FgLkqn@yX:9(5[WBvUtoyYmi)X.j8wOEtsA<2%1/J#sy8U&H@u0W,?s^_D0p,_&ygX;N;m*@6Z
mj`IEz,j~9PoOH,eYwNuNpyNk.w9SA69JbbM=L-m>:!<xl0D8tESeLLC&<kiv!@jx]l[k2xQeg.O0VRk)=fpIyR]K]aP4l^`;AG?
u?UyJ-ml$ctu%D*dJCEz?1-5E[GcDAq$2T`=4>DEM?XY4vPlowb%uv;;AViV[9LlO<GeJdedss&=VhxTnou.[+nz.t&Xar(Ls9ne
R7TxJIbfvjmFD5rnCo2t&k9W3Av2N@anJUQB7<_Y_D,)tU_#q=XV'aCl%<m%44BxAV;]y/7x[ooKdJyJor%.`7(9eg)a&HNO)Ekv
zXHM7='o-CZ2Ceom5(duA056i1cqIqW|t)uvNFC+,d[Mt_+hw|y~H*eAUTNbBQyS'3M*<=5tKCZAqxSX[i~,FUD.jf]IIBQ|WVN;
!#'h0Jwg7K[@0+IRJ9U5;t>y;oibqujn#3iWWD-@uXU]pzsn+4UZb#,J8cC9+cDblw=%b=S)$$XLLAS~:L^-,[#nKGC;z/S'mfY+
PY#x@:],B(63?0,rwY1!L*[^B3E4x#3T0YBZ.#~]<QPgRC&zRKfr@MaO`EhITbBx.5LIW+CZ><AUqV1vbabf@&kv+_jp1[p,BaGb
P=YgAucvcRlw.Zy<9XS*!qW@KIMLkExOQ7Kwac`iB_1+5f!:c$>Q,k&^Uaa)<4p)^/9AsU0W>l@UgWO%Nxz0WeY8b-LHiS4~Cn(L
y=k>n@T`VrwLTRB70V3%;16S<N@2$NEi8iNg7eq-)OiCi%OCy/v![@I+&/'Wd>ErJ`.$an,:Y[@GjdQ>GHW@e%M7-U5WC1R(WWEH
j;9-FBGA%r!<iIH#'2<(<XCR$JIzog,2z=$3RU.6s+?$hxKdTRf99?LfQG|sbkehJql7Eb49|f1v.q03C|MwXeD3?Ra7t!*be<vq
]&5^:F]8rDlw6Ry8_EmD^3yFM#K[X#f6Rg(Y$EvrdePfjMQUug.A+$>M]2P66S4kU#BI?H8.0Z!SXh]O_f0K+7|<KT,[c_9r:P,z
(eIjp-I:zadFwhe!>UIi25jesw?N<QIs%*ySEqt`]0b&|nW$7odF_O>gV_KLbnDK9L^%Mdpg/UZL%5hKXfM~^~HC%!8~IGp3Ik*H
h4EQIWXs^_Mwq8;VeDL)'5l;jOET)%6_6pe#zD8&9H'?B|^yu<x]U2:52adp9|Mp8MA`fs1%5EWvm?j$v9pGf.y`%P32416v<!#W
UK5^:VGbys.exGr:-<S&7Cot9Hx,=zr%v+#'1[Vhj`)_yc3&Y,~j@[-$~Q1SQ84(^'kb(SN@wsj(xL,k?tlNK(/C/q!258`4L2~O
Ul8E1d-@&V_wC+Vb[hy;clz[3I3i>G-w=.^~sCMNp<3q4I,1Xar,$xz,*JNCSDDZ@ZC;2<YrUL~GG$fcfgSu.MAm4,4hmSU<@>fp
1AX]KUgKuck]5_)$D#s[XqWd3A2Afy`zD|8g7/ha?,~^lj_Jw9o:Ypk)CSVCK]PQ-DR)=mLSjH8J#|S+-bq@[YjK@s$|<ALfWbrs
2/ITr/=8+IQ-W<@Z2bIkow6VovG.=Z?EFDzM:>p]^~YxmGj%n$ZrUqFQiCQQ(EG|;F4%^TPBPr3Qm+VcUS]3w*NS'<t;:g+&oEnT
16Dt#w'f83z!Zl~xCi@uP_ZV-YB.tt<Wc[$p*iv,/8/cK2:<H0_y6m>VK&idI,UPon?rbg@xW>MO(ho2+DAcnr-(n5RZ_0O7xGHT
<7oTMnzO(O+h6)3)cIYDB(He)Qi2CNGF4&@c~w<kB9:<e56J#vG[>13R(+cEv@@N`xJ@_w:ODd0W-m'kRO0[;T'P;!WBs^0i>yZZ
,W7;;d0nC+ig%V;_<@q.VN[C$G*wVH?ZcbyP'yMxQVD7@8>MYV834UMz&.|.vLEgUOn3y1KH8VYGy,9t|$JrAm2?QSxvT>($;tym
:Y1=,@li^YwGv~jdi~?e@pKBf~H/ikXlB0]Hn=As.`F;A:d:r>|r|~:$Hz>O#xgR5Fu?c~6d&%aNP?oyYXRc06Of2L],d#YmlmGr
b7!EpX!5H#5X<EuzL2]2w[za?s@O%3Mo)o;Ii^p~CRIF=qW|3zw<jtL*YQGfM2pOo&Sm)P9(IZKIRD3;$qe3k9U:Jcs/f>]AH$%b
v*?s?h=qRizDQ';E45DH%'Njicc3.jziRSnGc6&pcY6!]S9bt9'N,nZ+XU/.wkeRPesW(>jy31^)`0aIN<wc*c60%N=0/Ew('>,Y
mK#]D4l)c2.gg=$MX7,P2ry.,h~[cPmBfT>Y77JNu#xP`4#870Z60'QR_)3BCS=E,j.Wd!tY2&U#J6l79.:Im*[q_*7<#J2D5w3.
iN>2huSrAZ'j`e9BpFMFw@p2NGS;S1tCMEG'4T[EMhwfTW]tcI]%L3.EhupkFeB$g243j>oM~/t2.n4C<m2h2UJ&9-8PLt80/-.v
9cNR@T4d)QY^Ffsbt?~;z,xX_XaXz*iPv===v^?$~Ht7ZyT0F:DUj*w5Gzl5.c!64k#fEsQe41coIY!qk,9r<.mbN>zFM3.R3]Y,
T@>l5=6f+-yC]gwfN7TTs#qUAL;4.Gsr<PMIJPT1;TvthMV'Kg;.<oXE#z^liRunu~sd)lcfq6K?bJ0F5r+xw@2H=~gi%8|7)L`I
i`7oMsz8/9Nq5NzeO(~f)T)dLbLR0uM^b,C?(eM,#=<3?s%geI%(KP#z|ma4j;^*XXW8c2d5(gk-9|7FXo(X[u4zxlk2R0D2p*G2
9,<|(na#??91~/Ff.g2p.-YL]qm135>9|r_|Dj!_Y%v|9wTfs9+B'&/AZmmXpy2~-K&.w((2fh]9th(%ie/uL<xD|vOU1L]T+;sc
@BV*Z^WR@?_niUcDI@UMc0hX5A0wE`BmFtDLr0|5-!,d27tg`D*hKNM4mX1Xa%Y@ID<D/ch`gw[;d,f_ei6Qrw!,.dG8vrRKUe;9
Yr>i/Sf`&S?8>*E5Zk/nfLJMN:E[bYqy$oHCC_/Kg^r96*h84y9okuX!SvG/['M;cTf0<X5CN2@o8eIwcCGG=/6K;j_~GX`|L^c-
H?vvwC5&vKPz-uw*PUi|p`/cVG:39>uPT%VN2ep^L'D902,4j<h8b`-,/,#(4?:'3Q/;lkh>A5sSxv()u=4OI+R.NlPc`x5b1QZ%
?|f/O&;GlIGO1<7P#zcQ=H0BW[5$'=3Pr@%=W.VxY&WBxmzZW@w=Mn5uTn%x,/ncMV5&inT03j?7C`>*p:L%~fp4Yk9:E^J`JW;(
OcD:Jvjm8G?>5IGcg#gVI[Ud%++,$^.<SaeA,J?$-XNzix#U5k81gqR^QSso~jPX69asj7Q.bXci]UJAPVt_[aIRf*W=o$-`hmqX
lGnqjC+@_oB?pV+h?viqTPHaR*EUOSh?Kf*el:9uZn9<3K:f0El)tJ$Gvf,^O$F|+aQP!4|ksp^d?E_i-0H7PfGKW>@Wl[!3J/T:
pS,/!c~TDh~;Z0j(-o~cVQ3T$!iQs1c5S#O6P^8El6f2ncC'z`uwb2,ZGt/YbZ?nqAq;$~J+h)^;eGM0^>YbXSZ1|FS[cQ`aF]vs
9~r|6+#]m@`h*~$<B6q.t)cUMlc|8)gVS#K$69Sa8/8,~D[)SIfqG_)BTc]]N>qu6CR.%|VqtvcQgAZVl`,pbrc/wZ:=EZrH<Z69
onmR%?tZKa'IaY@&9SehSSO:I8Bb6Zm,@@t5gAE,G>Vdz,S;,l.GHTYu4e5'M,Jj$jzZV&&-xC5hU1Pu2`BN5elHBD;WRKx0n~SJ
`|,''~mX.+#YPcp+x^|5g-7QJGX3i4H;>:>Yi*!8+TmbSoZGP/m^Im_#+b7ZEDgphEJ=|_1<32v5Ge+]$VaUR~+$`U0uc[oRDh2r
2IAAWFwVIIT;g1#iIx+e:oi5K`$43Z9VYUVGX</lnUG(jP6I(jRqT!9lR5P.>SpDp<^[2V_7oq83dY?gGcG^Nk-~3:>fBQq3pbVY
j74QAPf>2-ljLaLd@/|]JoB;/s`6,YFR^!pE7=/itR[&Rd&DYo3-WMV^mGw7'UI(r&jHk8!b]078wE4^6@Yc4UR|aWefrF+PxRJX
wxY#gkj5I=fabD6wL1g`F~!($8qi07*._hUVvE<vZH0BWWFogJknVCbk4ek5PCMkPWaIhH?T,zFt)zSSBC5O5q`e=;$,1:[whLA|
-[RPx`T(y1l+;HF1_^i.)f9TaP0UxFz?k2xj356H*W9/a&4l-D,_TEd14|L$%*2'R~cQINt:0l&r`/%:uiDEV'U]GUQS4#XaD4q~
A~M99c%/$Tsc%5avN^iT_v#~~[eNzUeiYsk>wT$lF;$Z`b5kYV6^kq@cJk6G;TRFBSCx!8O`SKY'UQ[aE-||^!kLB:/_jwT23,&E
'5$LHP.#wDZ*Dd4Xo^j@0ME6qkgKgG=ra$nYY^zSiU'|Dg9;^H1Uf?vhJOsB]AdZO:6U`nkLGHo=z^MPfhV2_n%5`_4seXZ?@KQ/
p^C#rod<da&#+6&pKXR/R4%mZyn[&|(7]G.rwY!!y=<nm]6uREM|+Z!f4d#n*xf>'pu0+bRfQF2tl)yKGYBHr9m[,lBuvXw/xskl
?4eX@YIN=:&$J9,CaU5w/cboBCsbPNj_%1x_:x!r[50_C2]1Wu.o?B*YBb#`iBrbl+?=2wvPe$S,:c8FYi`fvXEg;u>HzJ<MJ<D9
r^w1^F]Bh[F$hdGZAMfeRAB[^I$]fVlg>)yKSiric:.&hk1v7)dSIg+cs=tDS4[wYo$A~x]~P#O,A`w57cQMlZ)-]DZy2Y8I,1Qf
:MqG#mA!GF$Dg9C:WZJ,B=oJPo.Y5;|]#V(IA/k+,TFjM<i=P|2:Swf8RYrV`eh-f1DF'=nmaaqv8d$.<N)q6jlD-yCBMt>]c3Q:
-88vte3U~Wzq$lQn2E(@rB)_$wh_=3/SwHB<N:H(TgG~jmhE:4DFHJ/l|E;j1AX'B^uh/$uA`R,TE!Z~U$3=<eA4mG=J0Wys$$dc
ER%unrCMn|'9%s_2SQWm#]?&hc0d1pL*x4pdWKPVEy]]s(|TR1<PJ;],d6T.]CaO/vwi`8p!FCdf|18C*BP&=&F(P`G0M@.^,vV=
(]^w`dhfW|W1nT<6Xk'K3vC>;Sn;rXdJV]Op7UJb<:5X;#S.b`8?5*]sd?X(1bUJNsKEdwI;O-qfuEM<T3pEeE#HG0,A?I=OsM&Y
rflr0cjLe~rL&hd[Ug!he6ClH2ql4G#,ZlJMrVE@#.ro0W-Qp/ZH!O,*G1W6$T/w:E[xr?r6UqrI!@NX>jwd`_fa,^/Rf[cb$aSN
rh_(a)b-lE<qDbyCN.HTVI/[hkDel>_>?wCG6G~/`4b:;Tff0>.f0>VpV5sFkd.t%7ND%AYX?&ZpHH62xSF.&#F=:@Ks8-F3DeDg
%<3QuCXB~*hK5T/1fW!/?uok3#q#IG4a2~Js/;n4KFX?C&]@Cc8a=`:d+Vg#DA9t>_^~g]oCX4F9e.Z)OmfSux_4cHo+|tk~z!58
0Gd6iC`BpS3uw!;B#OzN.dPz6g7CS=0w[a!@jQ)~~-_TOx,05EN?0nGJ#m'rI^le-Y$S`Pr=yFB^mlFEjj6&C.Cx~vE;-Jpb$;K9
[0~JMf79!wD8PJeKlW+Ys&vYfAA(/:TJ:*ocgH5OQA#(`gb:'T0Lw?!L@Y@VG3Pdlj+m/i^yhA_k'WGj4z6SD=*0;Srosg;upm@R
8r#V`;mAo`~?Wo[Dd>S01=f^w-H[hbKAv(Gw1#=YK7vtha8m+(=$>?i*=|)0TD68Z/n=[/nJS8)ElHuwcs#*WEl1`8eLTLPEK4i(
R2$20+6px9xI'WcLI2F~-'%$)-+p,$oWRz<ctna!e@6^0N,R%qPI31(FHDI~Z^A,+Y4S7H?U`n2@xK-(E_kvNAP%l<3T,`xCNUDR
HbcKymw/K^9fOgC')vmsrA4<v3YQ?kim)IXV#<Xg=|6w3a)^o]`AR;m7LFu>SL2B8fg8gWaE<L`eo.gTZQad[F'e$d#le?w5r;J*
fY-j@9m.tSI5G;pUd)c%V'U$~A9A=R51RiO%|U:<zu)MC[N(nCXJbva[6EZlqmk;+qJgReL@7pEy>OkOV(c<n4LYy3OSN]x1@qL*
]>:zA3LY=0jdV7=a;N@~iH^MXH~(8<e^E!4%B+[v+_2<LhL/x>:Y|dX[G:WVu)V&=pj$jcGDu%il]>fvaPl;V:$+l@<#-z[j)o=3
Im3CH:G-[fC@DrCT#Xe;!nt&LVQd5_,g+jdfSjcHcG[AXFlKy%DNM>*osJb)OV7*=[Niys'$tVg.I$#`&E9YU-2@w2fT/NI(<<|=
|f'hS0OB=zPmiSAk%y8,CNE7*~PpNUdHLr_HnWtMA5J87JallOgr.i%webAEjfwe9i6:s`b-9#],ZBFS4Cq%L5&%)PTPDPO_X*#a
Ve=?oj.M|p+n/$6,efQ|SjrN=:Vin>&GpmANo6^OpfU?e_YYXjY'~g)GK]L:cnGte~F;%tY)pTRAN.Rt4/B`[4m,d|(Cbxo'Ax|9
[kgtrErf7i+CMxKG8k8Tl-Tz&o-qdl86&t!,+^;ys5T6I20WQw2;|+-S=&_LYfb9vC-%'$yvMz%j/M-8xAcyU7#PH'_1<nu2>pc:
c`wEz|V|`3(pn>;_>X6%$.3AX:dSq3W$gLVG?30N56:R`wg/1Ge=)0LY89_||S&G8Su4,P6B(SIz;f4~lfn^v?mJMC$E-g^lkpz&
GoNy(d_RV,W~|FLxtvy2gCB4g=f_FQT)Ixm1QM.]N11smFw_%g,!3e*1|BWya#_iHq!4XStB:e7HTFY#XW~1H^>@VIXOtc|^j;Q!
a@<)U|$Vt35ObW):wn|6bXDpC$*A0QL|HqPVi-hFgq.5gDYKbHgNb?0aR<=@'0x-NrZzFWuV?/~:vL~g6,ry4Q]>ELvJP=Mzxo#+
wMV2V(E$L_6zr<l<N|'TiVivw'g@MT0p_M7,8C:n,4(K.q*vzJs?tfy`uILU8e/(JLzTrWXCL$zO]QB='AY$<1FVnsJ_]9W7m%QE
S&+:!^28cT<*:,naGB%8wtqME-.P>)@/E9~<c189-.62ah,l4o>5`'[Sd)-SPnGYJ$.wp=njBPw+9A$j2]go'a||Hzp;K|?!:Mk5
|7wNymEIu&l/?V!jMYlCJ?kMTqk:C@K].,h+HC]D*!x-)2*$()9*#|Sdw>1CMhi_$v0_rm`gkXPC(Zg6kA8PI^rLKe,/3X5m6pHR
Q9]nf;^jXj(Q`hhlyW`w93F1`.DUkWM5VM`M|n|/)Z65`Lqz:Eg96KSnzWOO>gv3C!sI%-nM:j*cUizHM]ML1Te*l)oUTzW)#Ft5
lA4L!(UV`rQy^1xmWHQ5d>^C&``.U[m*C$ugI,^M|Vx|P94&Z8$a!;Cjph`+@SUjwl^@&c$NKue@L402K15t<RdIF.#-:mV44V~~
/.B?YPcJLB_I>__dvqq<Ax+)Rm1!`Yx:t#N]]62Zz$XoHY<V(;PbHt^yi.Ood-XuP[H:L)!)-PisK*ViM<d)u'wLm(,soU5h37Tp
?77yN+lNni<CYw$dvHgyF@&$sQV~)l(>=A')Xn!V$qEbhmE#x24A+|~A+1nj4khX3Xa*bK;EkO)S?.,(Kc<)&Uc&W[`tA4X-gF'~
2$Z]5V&a!Ul'l.0*tLUu`p|LQBT`?1.oL3kP&ihB?dOhmy*s1r.XA$J0nIPj:D|Pbz><~H)N|T5BJYq8Z@O(L+:a3FivG'<JGSMs
WcEqXR3t6Nd%'E(SCcCIHm0l*hSeE%oTSH9LSgB+NRSl`L~w%quJ^Wt?vGWlNP^^RY[j[H6Eg2wIUd3Ozw;qX'#kes22w8Z.[BX8
c/bvQkcvLT]Y:|eA3~eW]Tz?oqFi'AK>3*R=.;k'&Pr>&SE6-H,*ezRY>GeFt86*t.,R)@8t(.[Oe%c[EEX76j;zx,ryXvk,3O;3
,H.@8yaaF5q`:DWMS!A#j9*,dB]./?1DAT_wZ&t3DttHI+Ov`He&k44^%51wGy@OAb/7~7AB4#,8P<Py:WVa3+gp55aCmm*QUAPd
IBL,-Ym^%JfKNDrWQ#W=^7d=hqP*j#ud-o_FEo*VGX'.sKJ8&xBVq47P>=Pycuex6Hy$CM(GqzEx81Dnca%!~J^MPxDd63I@RNP5
g^*%[591IK.g3J|Y[c)HCoW4!rged!z>?B,X[rv|(Cx0jef3~YKHY1nu%x0sL+.hR[z!zR~k-0(lz2mHr4+d<I6'_M,+j~`(TB*.
T0N,*^(>8FzO2^0l4EwPUZd[Go%444jhBaJb:W8L%!=wWbAZ5+fE/L=Q4Q=aKpqs3jf<|PrKcVzl9NY<w~Z>~zsw-)aRsf<G`Nd_
R|X5vqK2/X%4SL!dDt/Er*;KeSgs!ZWs3#f/LEeiBE[!v[LbB!X7:^y&@d@,8BXa7fh$:h/[9]zi^tN:mJ]iEv`]f3`.B47@uoJU
ruzaX'$~l,GRs]&ZRPWHK18XlrP>+T<@nJ/|6l.H^:d(wZ+bQr-uOM]TKUlM8/Q]GFrIgOEx~vLjvq~;XPI@[#b8T@McG]p0'S#Z
Z(2)t3#99VZhE!sEy7R?g0S'msb:fEo<M;Bp?8E47F:q6Bkod+q]S?N-2-prfZEJM0n@|TXjKTu>v#Rc3U0sMM=:]ePZ4/bl@1T]
?L(7|Ok*Y#Pkbc_fdwctHMLMv0j0K+#NAf5?Uw=>3-Ww_nuwur,?&UYw+p0/g90yY,zkY$1f,/++V3TO|31D%jN8A3Qv~7PMScn(
Ng(ZJ;|e'z~XZQ?8HW~0Sj5HZ2i84X`:@^iQ4!c>k+8C/B.WNNxmHmWS)N:ut@2er<HXb+D2Hfm|F$aJswfZIi$rcOmDSUmu<!^n
?`YYvtHAPVPi=4Qu6ORUu-,z&,/4':GGZF2%r:cwlbQv^_R40O*#hn2Akrg|r4qPy_]0p3AR/.jyrTCpJQyEtxt~NYF^|0vhmtZ)
,f7%iS~.CCavr_@<c>Q^W0lj6!n|o<=3@by]YHgz>sA_H&D<NddoqA~r8YmCqznkY*J?y7LTFiL;VxOCp@La;ZQ%08gL-`?Sde|V
5Vu)8`2d_Kw(Rm$G0&!~[^Lv,(52+q@sXt?0NXQ_d]:p~0F$%:^gf+WgdR[;k_hg['F~kjEA^5]B$TKpw6rb(UJ|kD$73~lfxO74
_cz_bad1Thd[Nq#+AW'gIGuQds#f6p$|niF[|c&A;xGML;wV[+L;'|/6<LK'p,OyJh`?d-gu>-73I]gz%$]H9?x^(+lU(*w&>^_(
S`%]bG-'W4&>O_YV/*$n=?@]H&)&9nXk<a~j'+R,Mgx>':m(`]4,k`NFNJHCo`vOBEttrOB^N!ofrz-WL],%BKUj7*YgWb0T+4[F
,cod^vi<PM6ZP96ZSfp?_f(`^vZou!e?*]j_E4<]4jGx0R!VQg@<T-*Io)LN9_?26|te^4[g&Dxuj7dZ%7=b=v~L7i_T7UJD!LNV
~Ce+q~GC*9&q]W0&Z/@ZkGY/E%[6SZ~>$0vEVGT-kx#^p~@:r:e%8QC(lEl2Ezz$n]J,zeIf&NN,PAurXL%^s4QPl(>X6x^qKYN(
(OaN~k)DCf:6#jksB#0oZ,*LXW$p1o<S?~8Q-oFsx|`t5,>+'.+!S3ocmjm`N3>JdT*#M,%,MC->/@u1(fH`W&1sS5s8(_]P$4l3
Sf8!fXZS^(clX8@q:ahyPCCZ<,>e|,>-I*49DnxO*y)3g~fRf#]3q'*YW1!DbTPi-F6?Maz'Vm0*e,]LHl1W3A9NbWyMcIn'P_s2
sd+3<c#qs(k<2*!qlU)7]x&~u!9ddD[lsBQiNr>tB_JZew8>Y?1[&c>vOqyLPY(u7)4.4h8(Y1oHA(kB0(lbyHgV1=HpXs'Efr9d
Ju=O;_qeqUJ|N$i9M)2-tD-v!OGh)f*sPA^bFL__<*~8oO]RGZ>Ae5DOlx4KmwIIk(XVK&pAgE'CLsFQ&>91G)Dde/Pduak*vkMp
N|Z6NGL:lf6>j~Q/ic/3H/JhZn$?EU_I#Jl@Ue>A55;O'Kvp`R(',_r<(I7+Fu4ZLzBxCTQHPINqcA@PPfr;j!cC9i)hnNSL=[K?
g|PoUtuUqXjc//D(_!*)>_L#%EqnY^qkZFf6]f/:Hf]a>=lWP;FdC4(-f2f@NlpK9!Ai;:J~XO1~Tq44*3Rge8e0Vx|YA&ZE2U1'
%ptV4B:_+H;>.H-dc#+U=Poh>;_=(Fj')P1d*~+^)y&t~kqRSamxfBC]?_?HXML|)8E'c)2otoQA'Mz=My9uK=/7@C,2|;!E=)M0
Wf/okNN2K`uZk_eNbro;9>5qDYzD,3_U?6)]![DbxnPdyhgnz4MT'[KkVr3i%(U$=])>kR0k6<!Kq9_GIUv;tc+c(ryn7PNHQ9,v
$*m-8?b%v<~Ib@#Sl&BPHRj.(A>cVvf1LL=asPocz3o[y2y![7%[i^a7d-<Lt9hVG'OhMI#+J`&W^]N6~vKT]i@jjrbC$A4uD(6l
lWIE,$q-MYNgHG<Zfc8OWP7$ZNoFV-&#(.NwOL6q#;lxV+v35)&z,k0[dHt.Ouu1I##6p4K1+j~uzKGo;%EbTxbd'R~No[p@CA5q
veL1g/#Yd[f)_ah)(%o@6'bbndL)'!3wmL!cZ^KyTU+)X(5YFa!LOO%X1)~qk39TAR#ospDZYXRh.M>&EXSxY(kR1*],SS2Q_MmE
jf~^yg>`Lra7#bC:h.CnEroJWyi$qEGY9_Am+p321ApY~+KWE=C`3erI8vF!bryoj|^A8%5*=v3S'#Mmmo0nQ&z-N`/x6iqcm`D.
>jT<MJomwwk,7DP8nC/&5('pL^|>*N,-0VF7=CH6i5'~='DE'I=#4I4U;b]?/[#~%9S%gOlYd1YfO|:<uTL$!K1N`B='xQ_[.(<7
A+0]eg^*&+F#=N]muv`PE?+6]m~(Z!WIN5:!$kJW4q!:ng-L0Pj.IoZ!91g|YVYASH@.xau=1WX|QLMNw?Fk%yv2+:WB%B7hg_L+
%j%9QC,nrn&U1ZiTIM=dF1-eQX;R^|xZ/vsM[AD&U4P&tA8;pS4iKp(*bRVU':8XkZ$oze5|29EaAOxAkr]_G,X*m$556@98Jbgb
t9+9VIA9!dE.xVn3ddI@#_d=57mu.h6OWX)-H84nZ)tghU-G-JllQ$S,FW:<]emwQ5ETaBtCv2bW?JC&'ifYf'C6!Wrt(p]`MVxX
evG>yP9aXFPd2#o^<u`M-gSWW%IgSzR^m&M,HHVdPQ.m.nmnnG:;b'6;rppcP(YYvc:G`d?G4?tEJvHO$QN&PZh-0?h5U'(Z?AI~
_$yT#%v=;u^1eV$(1-Szv!PG<BmuQe*J^fK$QZqU)hCbW:h/r&R2!DZ!lQERI|Pl!l$[LYBkqMewGRHZ?TNo!=9%Ng8kKCW3`)m$
1:-9<VDl;C]r%s*Tc2gn$vWOHr|Afb:1^L)bSe?:p.&moJX^g8]a$_<mLZc`D6$cW~,W=N0(wL>em%b|Yx6=K_w`*rgDgHvc#`:k
-<3-R*qAJ%gqRF4m?!eT_F6l,e0M5]Oo?$-gOeEUxPIxSdIDs`&mwii)+ZliIb:9&j'vV1V![#88USkJhB!@f?;]A9S9$z#9#):J
XpEWjYyo0Pm<1(9z3uDo/4RAoeDaU7XwaYLt+^2JJ')KUj)v)Xrj=Abd.dq9wt6H(jfvzNH^]7:wG9w|*;/rZyE>JMS@],t,-cP^
jvgCa+Yz>46()dz&z_OR!hMopn5wCo@=o(C_U;6(0q=SZFI#[tx&Ex/(C8p&=r6eM|i,+eGz'f[,tP~4REK+L`Dv5B3LkmU&Q:)V
h0ytD^bgG!kcq^F8xy8[I>5-G~X[ZN!fP[*1S&A3o,*.67dNIK++Y=M,CjC>&?3>l0,U5ubvJik+pX3AF.jNTsV%LMcl//y==to!
fES1`ZN)<R7V87j<e@E5^-uh%N.8U[m&6iocPs&x~/S?Q5dG2Y9jZN~NG78aM;wQ9`'D9sN1''Jib4V-Iiq0ecZPJC7vNAV8DVNw
aWi)6z.PU5rXx4t6S[mI+EG:Cy4Xnkc6qBiSQ3=^c_u?K#u'cSb+@GQ|r2J|Y'b1zDen)ZCxEt'zO8*uR#1~=;J~`9Td7/(aZ.tR
:n+Vt7Bm:.]mNK1e~DQ(F9vKBcJ@]@FLCjc@SlB2]XY;5?~g)(:;bPn['eEoRG%<aTN[|Ecb,e9(KU9Gg]ts6SisK^SD:yPJL+gB
$rn^E<8j!:,A$MgO%dHCvW|N|jXzkBDJ,pWYPT5:mtUWb]WtQ;12~EpbKv+28S-TAs.7)7EVMqfTOD%%KR<Y12m+f[*kk+t%%?bL
e<S]'Yizic?W=g<K`$DF:ua()-DUrB`t^.c~bZfk4Vpg?T]GFDF];Wg1x:D.'cHS77NDKMFL2wl[Bd;~.5NL3I<Hng9f>F5l~Nh'
$`Zm:s.lX5$Y,OL7Ea;gsF(9-Mcul~U$Z1.Gix(OOL8v$JK.,GIr~OqX`jgK)GyZ7fHx1o:nD,*@)!SK*bx5]f0I~mg_`ag>&h6d
O'%a&=,AtT=s<unGocFHt4jA`lgB/|q!2-|!Q=51p<&:G1m_@'>DhbIOmq,>+LMaI4]m=87'e68;lE-l~;!*gR4h+XqCQS@9LI9^
)GQ:+_*4uE#.I;NgW^BP-?7Yd7i4fjF>&5sy>'W(S7j|xob%p_g<<XG7aK$%apt4A,MMdJ?:eB!G-ad[+W_Ac=?@Rm3H:Ofzix.w
0387rQ@Jvz!+;k1VyTOx>,FYwh=nI[]~5<40QHjV^O=D_`^V05EURh`Ye|F2mXG-;lb#7fL(dv?lRl4.N7|[K*kd'l8%ghu*?J2v
yRctn0B/Liuqii3Ett)7:el!|3'Ztfi)zJ)=d=KP<:u1`ZbowiLO5vZDzo**f7C!`>6iGKp^r40kOmb@'Niw><011f`hJx_Ghf_&
N,=cos$</QxUcd#84wR_w=qjKv?W:W[wq4Z9xfxLL*7?!]6y)e.7GkmMhm|-xLh~=Wb9HPuzrH.[df'[g|v9yY+C]Z#KYoPP`Fh6
iOKVAlrJkgC,EA*ZMJb'FR4Wo4V|N/c#>Mh!fe0p#(eIlpRV]#wbe2bN!3,*zHS/!$7i%3F(Stg=L:PoGhj2hdsH+|F+*dTX(rma
06(5`heWGAsX8)=NL,=PNlYFtW02t-0wVfe:`q_/(98$!AnFV%hC$=Z%Bu,!|3WHw'cEN[pG^,%5pe(mL,*TUu>pg,>`Ls.sMhMX
p%47aJ`N^/[CxVrHkv(J#+fq(9r=t>~]2#]n6_:*dcGgzh/,sl]4$|ArE.jAcWb,U:<C^v=JQ0i)lDa>~C~yv+`iaJyhk7/prvdP
m70*z?YhQx^LC!|8u2.+.y[|sZMe2&br3DezITw/c_6z3.ZRNRCMda31:'[Flt&hu[*hpUds'-`YPXN3by$Cw*6g;23^gz+RPbFG
s'B2<2z+>Yx<bQsy'?>-yKwmUqu|I:v_zRBBxbrO6CRjs1LPz6F=1~[I9HT^N02#a_>:w,x|'>EMoW212;$/Zu:@;4*tFskvn|VQ
_]22B]>r^x'1u4x`ihy;#%COK#4Tj=0L^AhX_D-0<7xLw6`[evte0XK1YI5/L)2otw2i-aj2yneoo5,^=twfCczx/q.^nNYCIwE-
h+G^TnaThRb.]q^;r?L>2_(G=b|5y?3tEfOxp.yRb(7XJxH2?ZIWzJd|F%xqmB1y@(-Td9+AWDak?u)D1PDe$o>9y$_Ilh`s4JQ&
cD,Bt~7$8*!7#*:&Yt%+1.qk9Qck.%`jJ*w=:1qBAB)V?;/yi)m+5V%*[R[[.1F/+*Y~#W.c3&?iYVP4KQ>Z:NY0V|K~((A@&+Mz
e^bu38jt%Ud|:wTZ'pjJj?Fc9RU%6E#i@9971||snTwSmR1qE65A&X91Q]W/|&vXzdJz>tN5>]]b~mD^Cx-e2;]Uq$Z1j.#cR=1x
GZ>8eYm-S$8USlZ!qi8g;p8c9sC|qcqu+^`vy`mZi'QY(xEiVKfER~Vi->15ZkV6Z+Z*&Jgt*zh8+b2sa')|T,gaz.l2L@yKQ9`V
:[n4'6M*myRW.L?ig0gW^n1.Df=qkAw9qn5G*:?!y#MX1)&xObj-7c&2-RIA[[<)fw_iy-57Glhy%^1;x5)N[u>]nczwJiIl+)ha
m>Tl_Bm_If@V4BQmxA'-QB--.fW[EQf=p?Q]oo>2E(SLx/K0!oIG=d2|P|3`'p>1,6U%Og<=6'2hc4jA[L:O:DK@DP,|,AHAiaCG
0oaxXovyk3yqrYO>$:ZT^>*dSo'eQ0|VMY8I-/a52o08@GgnHj3^C3r!C&wEj[_+sLvRG'-46<M$ZE#=wqU5=1gxbb>$-XqZ3lFq
Y_msy52ALBm'2A5hAX-&]$f.R`#ImDbsT)2?oeJ%2E)CcL,9h5Y.A[y[-6%!a41k]xR-|oHuZi7MA5hQuZ^/||#xn~[&)18vQi8G
#lI$$_IvcsP17&3gYWEm?amwyOhxZAGNaS.VNK]XtitWg5^aolz[*EPTia2#a`U.2Sx@`E9M.#3haG&G:a$=MI_q@$7-'$uZ,Np:
!b70;'acd$Q9%R.0f0|6m&Y[('9'lgD+Y~y%n^q)'yN>gq&~noY4r!e,x:$8lmZG|R?;!/!~hS:.ykU~d|aF5E/cL1wyb>M~Nj.M
#IQHKC;iQayRlu(MiZrQ0kp!ih8tO2G:p4LZrs(QuC@T:1Um?<PoFSedZ1%,A&TT!)w7$/Be(>V%ByHs#qS@?==/Xm;=,L[>l*#E
*cV|XU7AB@>wq)ul/OFqS^)u&fHNT._b;`encAsC.dDd`1NFQm?bhk&V,:N?3u#oU/=GD)*1q8b4TH[_!rJ/y=aB8pT~Bh*4xl?F
,,w^bE+OWCEM`SOZmxRUd$w83(82#(|f6D^k7]t3m)9du[v&IMXx*!jsG[=L1MNgoWy]FnmHGF4yQ%.k>ZVLlATs',']6e>)|&K/
/7Udy'cXI7~<YEa6l*2Rp%>mTsj.HPlQViCD&~ZHQnpGzQCaBqkDn:HlFFykRikpc(Dok*C]Kc.dRvm/^&v8c_]Z(9H3B@,Y70an
5J4z$E]P3(cYNJ'|(rMPEK4GAhY!Dvz(4/df5m%$~.Il'4)b=?<3ivZ^$`y*^BXvmH:Pxw^_W5X,aS#0iqI[`N%Sf(m_N!YHiAN&
O~p*)Evt/I&-GzW^aWX1n!wkf:]VSNx6*?b7'=/1_7k@|R%.IxTwa~6<$Xi0N)U;@WX/mT#SmTdulY_BpYHr9CTo6,B$%Q?6y<!-
lil~k%UlK$a^Io7.B)`1rvXI8x#L9%94hOvmw+$f*2vr90/Y|8ljx)N<NlpQf)N8s=I$77[C-ht:qMsHs]&de&T+S)!:=,17fdot
q5yG8ZNLe>`H5.qB>eI[K?#O?nn/UyL';l'k+9Mth*n6^2BYX)yjVR&Qy6M@TMoDki808##EJ]Pc<n(310d|>07D/+T9ozBF36Z3
#-Mwbt&K+Ci,7g0hI`H9a[wVsR)uk7Ehsc/8WSFpm(9220k6A9N%FM[@3ySBL!>XCf_!!xRPo$>6cU'N`v|Ttbk@6-mknihYHUu`
lZBT9A0Nm<~vpiZOX1mHQ1*TB((WB]wRw8',[KTPk(sm=$H@__pSWXtm+&eMwp'0]`PM)]i9I4mS'#?7qRuTvbbmop8jn!`FEJt#
JM8k+T_N*<_$AVLo6/Ovjdd#K1Na(qL!7b`a~uucjBKne-aH5M1FFiu@VCNK?Au88ACp?h<0>yYb/jY;U;)Y#F0R!;`9kZ<*!,s.
^(r/hZG4a(hiGR:Z.!kJyCeje`i%tk?]<D,<YP2.Bdw(7zKO;T[IUb<K=;=`z.nfveyug:N-e7a10B!GDB,mH:PFm:Erup9PO0P=
hGHhqZA*IVK&Ckk:R.?u>hg3s9IRZTSY:ISTRd()][X;:p@u-^sDPNugV6.&R?EL&la4[RUfvVl-G)oX^o51^u/Nl-FSp=XH%Bv=
f-5A?,-$ZIyb]KWm|Uk,!WllVh'T=mH9Jik*CV[e5vJBS?c@~=n#_31d`Hy3XE;ov'#I]TNo+k,`0v3p2ID7?yXlDSVWZeso7Mtq
kg+bu2;gy1LhCh9WqDMhRSszpHZMNF3j,L4AJGR8J_byW%x:bi566'1CROi9+t,Jh.*Ei/;P.EBG=>g&3fx>`%Rx/r8)3xmrR=t5
[`S]1A;,*B9?>IDiL5:r85W<7[C#|v%Se9'0paJ,QqcMr7$b*de@Z]hfsyDC86[^gQWxL1^V4qu.E'$%0.<`3G?PV,#EFzHO%T>O
K['!0k8O)b(K3/`c]zo?1>rOJ&:'Y)j%d>2Nj!BY)u9#0p7-tKif*&pj6IjNDld|iwpU<*z#'PPP=i`c,-it5^ABdM_|3r>ea/p~
*]Inpp9/~B)J=fbIBOel.XT[O-Hj%MCL]h%;EiDW/#m6&eU<Y(M/gBqUI!LUj+,r_&`)B5*dDO,_(eqF5hl5W@Z)S_tM.MMg;U,u
rD*@o$fLl8h25qG&8Ldi;0ZufEt_k/ENcX5`v.w==gvc!yEZyzDcFQ:e=XF5ewcmY(=;dv;^1IgmSTHtAuN:-eW|V/j'<f08j.W>
Wc,Q)_A&W_$<fP%*Fk*5=P.VDsYh)y1]5?&A^0.5Y=5l.kO|^4?3OTY)5+2EB(=PS?D<FJ$Ri>_j$pRsc7>&K+OVCZ5)L_%(>ld~
knFS]bq*3;0n32XZ<O.|2Z-BhQ$v5-KdQbLDICuXsmDl'1u8xC1I%+-_ooL!dh<>3~GRZG'VO@y]Tx*5[/c_hB]D'#)Io8.2(S#$
&&8m3fSuH9/^dH>IvmdRGq:%4'5P$.k~Bp7m(Y=>>!VM0?HJ#m(9[+XKTx(|I,Fk2M<_d!8w!qosG6g5DEOcT1bTq>UI_l!3#~?g
H^.I;LHqN$vHC:!<j4Ve_g.HE,dGRh]LkK$Y>aD';t'cIT';.K/1=h!Y/)q/o~CjX61aR3F@GR)-aFU*//lU3j+M'vwbb$YDO'Kc
8s^b|*(o&FZ/.jsSS|HxI<t9R#W`'iP,~*4x%l|X,CmLP_x|E)dAdj[4p>^~;-]A<uL~JRY&GCxiJx*m4JSoOt]ahrx1Rie#b!M.
w!5`ATdO)xa90]ct^faA'Y)v[DB,fx*_&ou5ig-.Y)Qd[VRGc&[xD+-xaw:Lc'O06?N|MKrF)i^!HQ=/li!JQtr<S<6@;V<L/voF
8ML9W_Sdl)Dws$,7#E=!CZqn~H'R<:>pnUtSa17DEh7QzjhgOz@t+e3H[3QpH-:BF.9!jA;x0&JIhX`;D]=Uql#4O&CJUDVV]Ol=
X!2`XM4NS[@XH&XJos|F0p<(hlVqN3M3#w,-Rs@)RQW|K7nl=>?C!8&bT_Coj[$:/if]xXSg?%TK?3:M3E*zU2aYx@wml9x+vp!0
4kd&bkO0N)]z;q9PO-~H92SgLjl.8dyu;)Y0L<%'Glbq?1ue;V&M]4j6v.DC(C)9pq>r+uON:++u^yPj)aDLlu$eE"

end Loom.Text
